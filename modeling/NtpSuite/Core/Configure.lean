import NtpSuite.Core.Control

/-!
# Remote Configuration

The request `CONFIGURE`, which has lines of a configuration file. `configure` copies
them to a buffer for the parser. The parser calls `yyerror` for every error it
finds, which appends a text to the message that is sent back.

Both buffers have `MAXLINE` octets. They are buffers without an end here, whose
writes are recorded. The values of `err_pos` are recorded too, together with the
length of the message at that time. The parser is not part of the model: which
errors it finds is an input.

## Main definitions

* `RemoteConfig`: The buffers.
* `yyerror`: An error.
* `configure`: The request.
* `remoteStep`: A request and its response.
-/

namespace NtpSuite.Control

open Reading

def MAXLINE : Nat := 1024

/-- `remote_config`, and the values of `err_pos` with the length of the message. -/
structure RemoteConfig where
  buffer : Buffer
  err_msg : Buffer
  pos : Nat := 0
  err_pos : Nat := 0
  no_errors : Nat := 0
  seen : List (Nat × Nat) := []

/-- `strlen` of a text in a buffer of `MAXLINE` octets. -/
def strlen (m : Memory) : Nat := ((octetsAt m 0 MAXLINE).takeWhile (· ≠ 0)).length

/-- `snprintf` of a text at an offset. Nothing is written if there is no room, not
    even the end of the text. -/
def snprintf (b : Buffer) (off size : Nat) (text : CStr) : Buffer :=
  if size = 0 then b else b.put off (text.take (size - 1) ++ [0])

/-- `err_pos` is compared with the message. -/
def RemoteConfig.look (rc : RemoteConfig) : RemoteConfig :=
  { rc with seen := (rc.err_pos, strlen rc.err_msg.mem) :: rc.seen }

/-- A number as it is printed. -/
def decimal (n : Int) : CStr :=
  (if n < 0 then [0x2d] else []) ++
    (Nat.toDigits 10 n.natAbs).map fun c => BitVec.ofNat 8 c.toNat

/-- An error that the parser finds: the column, and the message of the parser. -/
structure YyError where
  err_col_no : Int
  msg : CStr
  msg_ne : ∀ c ∈ msg, c ≠ 0

/-- The text for an error. -/
def YyError.text (e : YyError) : CStr :=
  octets "column " ++ decimal e.err_col_no ++ [0x20] ++ e.msg

/-- `yyerror`. The position is advanced by the length of the text, whether it was
    written or not. The room that is left is an `int` which is passed as a `size_t`. -/
def yyerror (rc : RemoteConfig) (e : YyError) : RemoteConfig :=
  RemoteConfig.look
    { rc with
      err_msg := snprintf rc.err_msg rc.err_pos (sizeT ((MAXLINE : Int) - rc.err_pos)) e.text
      err_pos := rc.err_pos + e.text.length
      no_errors := rc.no_errors + 1 }

/-- The lines are copied, with a new line at their end. The new line is taken away
    while they are written to the log. -/
def saveLines (lines : CStr) (b : Buffer) : Buffer :=
  let b := b.put 0 lines
  let data_count := lines.length
  let noNl := data_count > 0 ∧ b.mem (data_count - 1) ≠ 0x0a
  let b := if noNl then b.put data_count [0x0a] else b
  let data_count := if noNl then data_count + 1 else data_count
  let b := b.put data_count [0]
  if data_count > 0 ∧ b.mem (data_count - 1) = 0x0a then
    (b.put (data_count - 1) [0]).put (data_count - 1) [0x0a]
  else b

/-- The message without an error. -/
def succeed (rc : RemoteConfig) : RemoteConfig :=
  if rc.no_errors = 0 then
    RemoteConfig.look
      { rc with
        err_msg := snprintf rc.err_msg 0 MAXLINE (octets "Config Succeeded")
        err_pos := rc.err_pos + (octets "Config Succeeded").length }
  else rc

/-- The text for a request that is not allowed to modify. -/
def prohibited : CStr := octets "runtime configuration prohibited by restrict ... nomodify"

/-- `configure`, for lines with the given errors: the buffers, and the calls that put
    the response together. -/
def configure (res_associd : BitVec 16) (nomodify : Bool) (lines : CStr)
    (errors : List YyError) (rc : RemoteConfig) : RemoteConfig × List CtlCall :=
  if res_associd ≠ 0 then (rc, [.error .badvalue])
  else if nomodify then
    let rc := RemoteConfig.look { rc with err_msg := snprintf rc.err_msg 0 MAXLINE prohibited }
    (rc, [.putdata (octetsAt rc.err_msg.mem 0 (strlen rc.err_msg.mem)) false, .flushpkt])
  else
    let rc := { rc with
      buffer := saveLines lines rc.buffer, pos := 0, err_pos := 0, no_errors := 0 }
    let rc := succeed (errors.foldl yyerror rc)
    (rc, [.putdata (octetsAt rc.err_msg.mem 0 rc.err_pos) false, .flushpkt])

/-- The data of a request. -/
def CtlRecv.lines {autokey : Bool} (rb : CtlRecv autokey) : CStr :=
  octetsAt rb.mem CTL_HEADER_LEN rb.reqCount

/-- The variables of the control messages and the buffers. -/
structure RemoteSys where
  ctl : CtlSys
  rc : RemoteConfig

/-- A control message, if its sender is not allowed to modify, and the errors in its lines. -/
structure RemoteEvent (autokey : Bool) where
  rb : CtlRecv autokey
  nomodify : Bool
  errors : List YyError

/-- A message is processed. What functions other than `configure` answer is left out. -/
def remoteStep {autokey : Bool} (env : CtlEnv) (s : RemoteSys) (e : RemoteEvent autokey) :
    RemoteSys :=
  let r := processControl env e.rb s.ctl
  if r.2 = some .configure then
    let c := configure r.1.res_associd e.nomodify e.rb.lines e.errors s.rc
    ⟨c.2.foldl (ctlCall env) r.1, c.1⟩
  else { s with ctl := r.1 }

end NtpSuite.Control
