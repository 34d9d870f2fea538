import NtpSuite.Core.Assoc
import NtpSuite.Lib.Loop

/-!
# Names of Statistics Files

`valid_fileref` of `ntp_filegen.c`, which refuses names that lead out of a directory. Its
loop goes to the next separator with `strchr`, and that begins to search where the loop is.

## Main definitions

* `filerefTurn`: The loop.
* `ValidFileref`: What the function returns.
-/

namespace NtpSuite.Filegen

def DIR_SEP : BitVec 8 := 0x2f
def DOT : BitVec 8 := 0x2e

/-- `strchr`: the text from the character on. -/
def strchr (c : BitVec 8) : CStr → Option CStr
  | [] => none
  | a :: s => if a = c then some (a :: s) else strchr c s

/-- The component at the beginning of the text is `..`. -/
def dotDot : CStr → Bool
  | a :: b :: p => a == DOT && b == DOT && p.head?.all (· == DIR_SEP)
  | _ => false

/-- The loop of `valid_fileref`. -/
def filerefTurn (p : CStr) : CStr ⊕ Bool :=
  if dotDot p then .inr false
  else match strchr DIR_SEP p with
    | none => .inr true
    | some p => .inl p

/-- `valid_fileref` returns a result. -/
def ValidFileref (dir fname : Option CStr) (r : Bool) : Prop :=
  if dir.getD [] = [] then r = false
  else match fname with
    | none => r = false
    | some fname => Loop.Ends filerefTurn fname r

end NtpSuite.Filegen
