import NtpSuite.Core.Control

/-!
# The Variables of a Response

How `ntpq` reads the variables in the data of a response. `nextvar` finds the next
one and copies its name and its value to two static buffers. What prints the
variables then decodes some of the values: `decodearr` takes a value apart into words,
which `mstolfp` copies once more with the decimal point moved by three places.

Pointers into the data are what is left of the data from there on. `beyond` is the
octet behind the data, which `nextvar` looks at when a value is missing at the very
end. A string is what stands before its zero. The four buffers are buffers without an
end whose writes are recorded.

An `u_long` has 64 bits.

## Main definitions

* `nextvar`: The next variable.
* `atolfp`, `mstolfp`: A number.
* `decodearr`: An array of numbers.
* `Use`: What is done with a variable.
* `printLoop`: The loop over the variables.
* `cookedUse`, `peersUse`: `cookedprint` and `doprintpeers`.
-/

namespace NtpSuite.Ntpq

def MAXVARLEN : Nat := 256
def MAXVALLEN : Nat := 2048

/-- The octets of `buf` in `decodearr`. -/
def WORD_SIZE : Nat := 60

/-- The octets of `buf` in `mstolfp`. -/
def DIGITS_SIZE : Nat := 100

def MAXFRAGS : Nat := 32
def DATASIZE : Nat := MAXFRAGS * 480

def COMMA : BitVec 8 := 0x2c
def EQUALS : BitVec 8 := 0x3d
def QUOTE : BitVec 8 := 0x22
def CR : BitVec 8 := 0x0d
def LF : BitVec 8 := 0x0a

/-- `isspace`: a blank, or one of `\t`, `\n`, `\v`, `\f` and `\r`. -/
def isspace (c : BitVec 8) : Bool :=
  c == 0x20 || (decide (0x09 ≤ c.toNat) && decide (c.toNat ≤ 0x0d))

def isdigit (c : BitVec 8) : Bool := decide (0x30 ≤ c.toNat) && decide (c.toNat ≤ 0x39)

/-- A string without the white space at its end. -/
def trimEnd (s : CStr) : CStr := s.rdropWhile isspace

/-- The static buffers of `nextvar` and the local ones of `decodearr` and `mstolfp`. -/
structure Bufs where
  name : Buffer
  value : Buffer
  word : Buffer
  digits : Buffer

/-- A variable. Without a value it has the null pointer. -/
structure Var where
  name : CStr
  value : Option CStr
deriving DecidableEq, Repr

/-! ### The next variable -/

/-- What ends a name: `strcspn` stops at the end of the string too. -/
def endsName (c : BitVec 8) : Bool := c == COMMA || c == EQUALS || c == CR || c == LF || c == 0

/-- The name is copied. -/
def Bufs.putName (b : Bufs) (name : CStr) : Bufs :=
  { b with name := (b.name.put 0 name).put name.length [0] }

/-- The value is copied. The white space at its end is replaced afterwards. -/
def Bufs.putValue (b : Bufs) (value : CStr) : Bufs :=
  { b with value := (b.value.put 0 value).put (trimEnd value).length [0] }

/-- The end of a value: a quoted one ends behind the quote or at the end of the data, any
    other one at a comma or a new line. It is the value and what follows, or `none` if
    the pointer is moved behind the end of the data. -/
def spanValue (beyond : BitVec 8) (cp : CStr) : Option (CStr × CStr) :=
  if cp.headD beyond = QUOTE then
    match cp with
    | [] => none
    | q :: tl =>
      let body := tl.takeWhile (· ≠ QUOTE)
      let np := tl.dropWhile (· ≠ QUOTE)
      some (q :: body ++ np.take 1, np.drop 1)
  else some (cp.span fun c => c ≠ COMMA ∧ c ≠ CR)

/-- The value behind a name, or the end of the variables. -/
def nextvalue (beyond : BitVec 8) (name cp : CStr) (b : Bufs) : Bufs × Option (Var × CStr) :=
  let cp := cp.dropWhile fun c => isspace c ∧ c ≠ CR ∧ c ≠ LF
  match spanValue beyond cp with
  | none => (b, none)
  | some (value, np) =>
    if value.length ≥ MAXVALLEN ∨ np ≠ [] ∧ np.head? ≠ some COMMA ∧ np.head? ≠ some CR then
      (b, none)
    else
      (b.putValue value,
        some (⟨name, some (trimEnd value)⟩, if np.head? = some COMMA then np.drop 1 else np))

/-- `nextvar`: the variable and what is left of the data. -/
def nextvar (beyond : BitVec 8) (data : CStr) (b : Bufs) : Bufs × Option (Var × CStr) :=
  let cp := data.dropWhile fun c => c = COMMA ∨ isspace c
  if cp = [] then (b, none)
  else
    let name := trimEnd (cp.takeWhile fun c => ¬ endsName c)
    let b := b.putName name
    match cp.dropWhile fun c => ¬ endsName c with
    | [] => (b, some (⟨name, none⟩, []))
    | c :: cp =>
      if c = COMMA ∨ c = CR ∨ c = LF then (b, some (⟨name, none⟩, cp))
      else nextvalue beyond name cp b

/-! ### Numbers -/

/-- The number with these digits. -/
def decimalNum (digits : CStr) : BitVec 64 :=
  digits.foldl (fun n c => n * 10 + (c.setWidth 64 - 0x30)) 0

/-- The loop that turns a decimal fraction into a binary one: the rest and the bits. -/
def fractionBits (ten_fact : BitVec 64) : Nat → BitVec 64 × BitVec 64 → BitVec 64 × BitVec 64
  | 0, r => r
  | k + 1, (dec_f, tmp) =>
    let dec_f := dec_f <<< 1
    if dec_f ≥ ten_fact then fractionBits ten_fact k (dec_f - ten_fact, tmp ||| (1 <<< k))
    else fractionBits ten_fact k (dec_f, tmp)

/-- The fraction with these digits. -/
def fraction (digits : CStr) : BitVec 64 :=
  let digits := digits.take 9
  if digits = [] then 0
  else
    let ten_fact : BitVec 64 := BitVec.ofNat 64 (10 ^ digits.length)
    let r := fractionBits ten_fact 32 (decimalNum digits, 0)
    if r.1 <<< 1 > ten_fact then r.2 + 1 else r.2

/-- A number of two words, or its negative. -/
def makeLfp (isneg : Bool) (dec_i dec_f : BitVec 64) : LFp :=
  let r := if isneg then (~~~dec_i + (if ~~~dec_f + 1 = 0 then 1 else 0), ~~~dec_f + 1)
    else (dec_i, dec_f)
  r.1.setWidth 32 ++ r.2.setWidth 32

/-- The string ends, or white space follows. -/
def atEnd (cp : CStr) : Bool := cp.head?.all isspace

/-- A point or a digit follows. -/
def atNumber (cp : CStr) : Bool := cp.head?.any fun c => c == 0x2e || isdigit c

/-- `atolfp`. -/
def atolfp (str : CStr) : Option LFp :=
  let cp := str.dropWhile isspace
  let isneg := cp.head? == some 0x2d
  let cp := if isneg then cp.drop 1 else cp
  let cp := if cp.head? = some 0x2b then cp.drop 1 else cp
  if ¬ atNumber cp then none
  else
    let dec_i := decimalNum (cp.takeWhile isdigit)
    let cp := cp.dropWhile isdigit
    if atEnd cp then some (makeLfp isneg dec_i 0)
    else if cp.head? ≠ some 0x2e then none
    else
      let cp := cp.drop 1
      if atEnd (cp.dropWhile isdigit) then
        some (makeLfp isneg dec_i (fraction (cp.takeWhile isdigit)))
      else none

/-- The text with the point moved: more than three digits stay before it, or there is a
    zero; the rest follows, with zeros before it so that there are three digits, and
    then the digits behind the point. -/
def movePoint (sign int frac : CStr) : CStr :=
  let lead := if int.length > 3 then int.take (int.length - 3) else [0x30]
  let rest := int.drop (int.length - 3)
  sign ++ lead ++ [0x2e] ++ List.replicate (3 - rest.length) 0x30 ++ rest ++ frac

/-- `mstolfp`. -/
def mstolfp (str : CStr) (buf : Buffer) : Buffer × Option LFp :=
  let cp := str.dropWhile isspace
  let sign := if cp.head? = some 0x2d then [0x2d] else []
  let cp := cp.drop sign.length
  if ¬ atNumber cp then (buf.put 0 sign, none)
  else
    let int := cp.takeWhile isdigit
    let cp := cp.dropWhile isdigit
    let point := cp.head? = some 0x2e
    let frac := if point then (cp.drop 1).takeWhile isdigit else []
    let cp := if point then (cp.drop 1).dropWhile isdigit else cp
    let text := movePoint sign int frac
    let buf := buf.put 0 (text ++ [0])
    if atEnd cp then (buf, atolfp text) else (buf, none)

/-- `decodetime`. -/
def decodetime (str : CStr) (b : Bufs) : Bufs × Option LFp :=
  let r := mstolfp str b.digits
  ({ b with digits := r.1 }, r.2)

/-- The loop of `decodearr`, for so many numbers at most. -/
def decodeWords : Nat → CStr → Bufs → Bufs × Option (List LFp)
  | 0, _, b => (b, some [])
  | n + 1, str, b =>
    let cp := str.dropWhile isspace
    if cp = [] then (b, some [])
    else
      let word := cp.takeWhile fun c => ¬ isspace c
      let r := decodetime word { b with word := b.word.put 0 (word ++ [0]) }
      match r.2 with
      | none => (r.1, none)
      | some lfp =>
        let rest := decodeWords n (cp.dropWhile fun c => ¬ isspace c) r.1
        (rest.1, rest.2.map (lfp :: ·))

/-- `decodearr`. -/
def decodearr (str : CStr) (b : Bufs) : Bufs × Option (List LFp) := decodeWords 8 str b

/-! ### The loop over the variables -/

/-- What is done with a variable: its value is an array or a time, the program ends, or
    anything else. -/
inductive Use where
  | arr (str : CStr)
  | time (str : CStr)
  | stop
  | other
deriving DecidableEq, Repr

/-- The value is decoded, or the program ends. -/
def Use.apply (u : Use) (b : Bufs) : Option Bufs :=
  match u with
  | .arr str => some (decodearr str b).1
  | .time str => some (decodetime str b).1
  | .stop => none
  | .other => some b

/-- The loop over the variables, for a program that uses them in some way. -/
def printLoop (use : Var → Use) (beyond : BitVec 8) : Nat → CStr → Bufs → Bufs
  | 0, _, b => b
  | fuel + 1, data, b =>
    match nextvar beyond data b with
    | (b, none) => b
    | (b, some (v, data)) =>
      match (use v).apply b with
      | none => b
      | some b => printLoop use beyond fuel data b

/-- The formats of `cookedvars` that decode arrays. -/
def arrayVars : List String := ["filtdelay", "filtoffset", "filtdisp", "filterror"]

/-- The formats of `cookedvars` that decode addresses. -/
def addrVars : List String := ["refid", "srcadr", "peeradr", "dstadr"]

/-- The other formats of `cookedvars`. -/
def scalarVars : List String := ["leap", "reach", "reftime", "clock", "org", "rec", "xmt", "flash"]

/-- The name is one of these. -/
def Var.isOneOf (v : Var) (names : List String) : Bool :=
  names.any fun s => v.name == Control.octets s

/-- The string in the value: what stands before its first zero. -/
def cstring (value : CStr) : CStr := value.takeWhile (· ≠ 0)

/-- `cookedprint`: a value that is missing is a null pointer which is read, and
    `decodenetnum` insists on less than 80 characters. -/
def cookedUse (v : Var) : Use :=
  match v.value with
  | none => if v.isOneOf (arrayVars ++ addrVars ++ scalarVars) then .stop else .other
  | some value =>
    if v.isOneOf arrayVars then .arr (cstring value)
    else if v.isOneOf addrVars ∧ (cstring value).length ≥ 80 then .stop
    else .other

/-- `doprintpeers`, for the list `peervarlist` or another one. -/
def peersUse (peervarlist : Bool) (v : Var) : Use :=
  let only := if peervarlist then ["srchost", "refid", "jitter"] else []
  match v.value with
  | none =>
    if v.isOneOf (["srcadr", "peeradr", "dstadr", "hmode", "stratum", "hpoll", "ppoll", "reach",
      "delay", "offset", "rootdisp", "dispersion", "rec", "srcport", "peerport", "reftime"] ++ only)
    then .stop else .other
  | some value =>
    if v.isOneOf ["delay", "offset", "rootdisp", "dispersion"] then .time (cstring value)
    else if v.isOneOf ["jitter"] ∧ peervarlist then .time (cstring value)
    else if (v.isOneOf ["srcadr", "peeradr", "dstadr"] ∨ v.isOneOf ["refid"] ∧ peervarlist) ∧
        (cstring value).length ≥ 80 then .stop
    else .other

end NtpSuite.Ntpq
