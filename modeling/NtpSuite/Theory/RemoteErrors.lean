import NtpSuite.Theory.CtlResponse

/-!
# Errors of a Remote Configuration

What `configure` and `yyerror` write to the two buffers of `remote_config`. The
receive buffer is larger than they are if there is Autokey, and `configure` does
not compare the length of a request with anything. `yyerror` passes on the room
that is left, but advances the position by the length of the whole text. Once a
text has been cut off the position is behind the end of the message, and with the
next error it is behind the end of the buffer.

As long as no text has been cut off, the message is what was written so far. That
is the invariant over the errors of a request.

## Main definitions

* `RemoteConfig.Good`: Everything was written inside, and no position was behind
  the end of the message.
* `Message`: What the message is while no text has been cut off.
* `ConfigureOk`: The condition on a request.

## Theorems

* `yyerror_fits`, `yyerror_full`: What one error does.
* `errors_good_iff`: What all errors of a request do.
* `remote_config_iff`: What all requests do.
-/

namespace NtpSuite.Control

open Reading
open Storing List

/-! ### Texts -/

section Texts

variable {m : Memory} {k : Nat} {text : CStr}

theorem strlen_eq (hk : k < MAXLINE) (hzero : m k = 0) :
    strlen m = ((octetsAt m 0 k).takeWhile (· ≠ 0)).length := by
  obtain ⟨rest, hrest⟩ : ∃ rest, MAXLINE = k + (1 + rest) := ⟨MAXLINE - k - 1, by omega⟩
  have hone : octetsAt m (0 + k) 1 = [0] := by simp [octetsAt, hzero]
  unfold strlen
  rw [hrest, octetsAt_add, octetsAt_add, hone, takeWhile_append]
  split_ifs with hall
  · rw [singleton_append, takeWhile_cons_of_neg (by simp), append_nil, hall]
  · rfl

theorem strlen_le (hk : k < MAXLINE) (hzero : m k = 0) : strlen m ≤ k := by
  rw [strlen_eq hk hzero]
  refine ( takeWhile_prefix _).length_le.trans ?_
  simp [octetsAt]

/-- The length of a text without a zero that stands in a buffer. -/
theorem strlen_of_stands (hstands : Stands m 0 (text ++ [0])) (hne : ∀ c ∈ text, c ≠ 0)
    (hlen : text.length < MAXLINE) : strlen m = text.length := by
  obtain ⟨htext, hend⟩ := stands_append.mp hstands
  have hzero : m text.length = 0 := by
    have hlast := hend 0 (by simp)
    simpa using hlast
  rw [strlen_eq hlen hzero, htext.octetsAt_eq, takeWhile_eq_self_iff.mpr]
  intro c hc
  exact decide_eq_true (hne c hc)

theorem decimal_ne (n : Int) : ∀ c ∈ decimal n, c ≠ 0 := by
  intro c hc
  rcases mem_append.mp hc with hsign | hdigit
  · split_ifs at hsign
    · rw [mem_singleton.mp hsign]
      decide
    · cases hsign
  · obtain ⟨d, hd, rfl⟩ := mem_map.mp hdigit
    have hisDigit := Nat.isDigit_of_mem_toDigits (by decide) (by decide) hd
    simp only [Char.isDigit, Bool.and_eq_true, decide_eq_true_eq] at hisDigit
    obtain ⟨hlow, hhigh⟩ := hisDigit
    have hlow' : 48 ≤ d.toNat := UInt32.le_iff_toNat_le.mp hlow
    have hhigh' : d.toNat ≤ 57 := UInt32.le_iff_toNat_le.mp hhigh
    intro hzero
    have hmod : d.toNat % 2 ^ 8 = 0 := by
      simpa using congrArg BitVec.toNat hzero
    omega

theorem YyError.text_ne (e : YyError) : ∀ c ∈ e.text, c ≠ 0 := by
  have hcolumn : ∀ c ∈ octets "column ", c ≠ 0 := by decide +kernel
  intro c hc
  unfold YyError.text at hc
  simp only [mem_append, mem_singleton] at hc
  rcases hc with ((hc | hc) | rfl) | hc
  · exact hcolumn c hc
  · exact decimal_ne _ c hc
  · decide
  · exact e.msg_ne c hc

end Texts

/-! ### Errors -/

section Errors

variable {rc : RemoteConfig} {message : CStr} {e : YyError}

/-- Everything was written inside the buffers, and the position was never behind the
    end of the message. -/
structure RemoteConfig.Good (rc : RemoteConfig) : Prop where
  buffer : rc.buffer.Within MAXLINE
  err_msg : rc.err_msg.Within MAXLINE
  seen : ∀ p ∈ rc.seen, p.1 ≤ p.2

/-- A text is written to the message, and the position is set. -/
def RemoteConfig.print (rc : RemoteConfig) (off size : Nat) (text : CStr)
    (err_pos no_errors : Nat) : RemoteConfig :=
  RemoteConfig.look
    { rc with
      err_msg := snprintf rc.err_msg off size text
      err_pos := err_pos
      no_errors := no_errors }

/-- What is good after a text has been written was good before, and the position is
    not behind the end of the message. -/
theorem print_good_iff (off size : Nat) (text : CStr) (err_pos no_errors : Nat) :
    (rc.print off size text err_pos no_errors).Good ↔
      rc.Good ∧ (snprintf rc.err_msg off size text).Within MAXLINE ∧
        err_pos ≤ strlen (snprintf rc.err_msg off size text).mem := by
  have hbefore : (snprintf rc.err_msg off size text).Within MAXLINE →
      rc.err_msg.Within MAXLINE := by
    unfold snprintf
    split_ifs
    · exact id
    · exact fun h => (Buffer.within_put.mp h).2
  have hseen : (∀ p ∈ (rc.print off size text err_pos no_errors).seen, p.1 ≤ p.2) ↔
      err_pos ≤ strlen (snprintf rc.err_msg off size text).mem ∧ ∀ p ∈ rc.seen, p.1 ≤ p.2 := by
    unfold RemoteConfig.print RemoteConfig.look
    rw [forall_mem_cons]
  constructor
  · intro hgood
    obtain ⟨hpos, hold⟩ := hseen.mp hgood.seen
    exact ⟨⟨hgood.buffer, hbefore hgood.err_msg, hold⟩, hgood.err_msg, hpos⟩
  · rintro ⟨hgood, hmsg, hpos⟩
    exact ⟨hgood.buffer, hmsg, hseen.mpr ⟨hpos, hgood.seen⟩⟩

theorem snprintf_fits {b : Buffer} {front text : CStr} {size : Nat} (hfront : Stands b.mem 0 front)
    (hne : ∀ c ∈ front ++ text, c ≠ 0) (hsize : text.length < size)
    (hlen : (front ++ text).length < MAXLINE) (hwithin : b.Within MAXLINE) :
    (snprintf b front.length size text).Within MAXLINE ∧
      Stands (snprintf b front.length size text).mem 0 (front ++ text) ∧
      strlen (snprintf b front.length size text).mem = (front ++ text).length := by
  have hput : snprintf b front.length size text = b.put front.length (text ++ [0]) := by
    unfold snprintf
    rw [if_neg (by omega), take_of_length_le (by omega)]
  have hstands : Stands (b.put front.length (text ++ [0])).mem 0 (front ++ text ++ [0]) := by
    rw [append_assoc, stands_append]
    refine ⟨hfront.store (.inl (by omega)), ?_⟩
    rw [zero_add]
    exact Buffer.stands_put
  rw [hput, Buffer.within_put]
  rw [length_append] at hlen
  refine ⟨⟨.inr ?_, hwithin⟩, (stands_append.mp hstands).1, ?_⟩
  · rw [length_append, length_singleton]
    omega
  · exact strlen_of_stands hstands hne (by rw [length_append]; exact hlen)

/-- A text that does not fit is cut off at the end of the buffer. -/
theorem snprintf_full {b : Buffer} {off : Nat} {text : CStr} (hoff : off < MAXLINE)
    (hfull : MAXLINE - off ≤ text.length) :
    strlen (snprintf b off (MAXLINE - off) text).mem < MAXLINE := by
  have hput : snprintf b off (MAXLINE - off) text =
      b.put off (text.take (MAXLINE - off - 1) ++ [0]) := if_neg (by omega)
  have hlength : (text.take (MAXLINE - off - 1)).length = MAXLINE - off - 1 := by
    rw [length_take]
    omega
  have hstands : Stands (b.put off (text.take (MAXLINE - off - 1) ++ [0])).mem off
      (text.take (MAXLINE - off - 1) ++ [0]) := Buffer.stands_put
  have hzero := (stands_append.mp hstands).2 0 (by simp)
  rw [hput]
  refine (strlen_le (by omega) hzero).trans_lt ?_
  omega

/-- What the message is while no text has been cut off. -/
structure Message (rc : RemoteConfig) (message : CStr) : Prop where
  stands : Stands rc.err_msg.mem 0 message
  ne : ∀ c ∈ message, c ≠ 0
  err_pos : rc.err_pos = message.length
  length_lt : message.length < MAXLINE

theorem Message.yyerror_eq (hm : Message rc message) :
    yyerror rc e = rc.print message.length (MAXLINE - message.length) e.text
      (message.length + e.text.length) (rc.no_errors + 1) := by
  have hlt := hm.length_lt
  have hsize : sizeT ((MAXLINE : Int) - rc.err_pos) = MAXLINE - message.length := by
    rw [hm.err_pos]
    unfold sizeT
    unfold MAXLINE at hlt ⊢
    omega
  unfold yyerror
  rw [hsize, hm.err_pos]
  rfl

theorem yyerror_fits (hm : Message rc message) (hfits : (message ++ e.text).length < MAXLINE) :
    ((yyerror rc e).Good ↔ rc.Good) ∧
      (rc.Good → Message (yyerror rc e) (message ++ e.text)) := by
  have hne : ∀ c ∈ message ++ e.text, c ≠ 0 := by
    intro c hc
    rcases mem_append.mp hc with hc | hc
    · exact hm.ne c hc
    · exact e.text_ne c hc
  have hsize : e.text.length < MAXLINE - message.length := by
    rw [length_append] at hfits
    omega
  have hprint := fun hwithin => snprintf_fits hm.stands hne hsize hfits hwithin
  rw [hm.yyerror_eq, print_good_iff]
  refine ⟨and_iff_left_of_imp fun hgood => ?_, fun hgood => ?_⟩
  · obtain ⟨hwithin, -, hlen⟩ := hprint hgood.err_msg
    exact ⟨hwithin, (hlen.trans length_append).ge⟩
  · exact ⟨(hprint hgood.err_msg).2.1, hne, length_append.symm, hfits⟩

theorem yyerror_full (hm : Message rc message) (hfull : ¬ (message ++ e.text).length < MAXLINE) :
    ¬ (yyerror rc e).Good := by
  rw [length_append] at hfull
  have hlt := hm.length_lt
  rw [hm.yyerror_eq, print_good_iff]
  have hcut : strlen (snprintf rc.err_msg message.length (MAXLINE - message.length) e.text).mem <
      MAXLINE := snprintf_full hlt (by omega)
  omega

theorem good_of_yyerror (hgood : (yyerror rc e).Good) : rc.Good :=
  ((print_good_iff _ _ _ _ _).mp hgood).1

theorem good_of_errors {errors : List YyError} (hgood : (errors.foldl yyerror rc).Good) :
    rc.Good := by
  induction errors generalizing rc with
  | nil => exact hgood
  | cons e errors ih => exact good_of_yyerror (ih hgood)

theorem errors_good_iff (hm : Message rc message) (errors : List YyError) :
    (errors.foldl yyerror rc).Good ↔
      rc.Good ∧ message.length + (errors.flatMap YyError.text).length < MAXLINE := by
  induction errors generalizing rc message with
  | nil => exact (and_iff_left hm.length_lt).symm
  | cons e errors ih =>
    rw [flatMap_cons, length_append, ← add_assoc]
    by_cases hfits : (message ++ e.text).length < MAXLINE
    · obtain ⟨hgood, hmessage⟩ := yyerror_fits hm hfits
      constructor
      · intro hall
        have hbefore := hgood.mp (good_of_errors hall)
        have htail := ((ih (hmessage hbefore)).mp hall).2
        rw [length_append] at htail
        exact ⟨hbefore, htail⟩
      · rintro ⟨hbefore, htotal⟩
        rw [← length_append] at htotal
        exact (ih (hmessage hbefore)).mpr ⟨hgood.mpr hbefore, htotal⟩
    · refine iff_of_false (fun hall => yyerror_full hm hfits (good_of_errors hall)) ?_
      rw [length_append] at hfits
      omega

theorem errors_no_errors (errors : List YyError) :
    (errors.foldl yyerror rc).no_errors = rc.no_errors + errors.length := by
  induction errors generalizing rc with
  | nil => rfl
  | cons e errors ih =>
    rw [foldl_cons, ih, length_cons]
    change rc.no_errors + 1 + errors.length = _
    omega

end Errors

/-! ### Requests -/

section Requests

variable {rc : RemoteConfig} {autokey : Bool} {env : CtlEnv}

/-- The octets of lines, with a new line at their end. -/
def lineCount (lines : CStr) : Nat :=
  if lines ≠ [] ∧ lines.getLast? ≠ some 0x0a then lines.length + 1 else lines.length

theorem last_of_put (b : Buffer) {lines : CStr} (hne : lines ≠ []) :
    lines.getLast? = some ((b.put 0 lines).mem (lines.length - 1)) := by
  have hpos := length_pos_of_ne_nil hne
  have hlast := (Buffer.stands_put : Stands (b.put 0 lines).mem 0 lines) (lines.length - 1)
    (by omega)
  rw [zero_add] at hlast
  rw [hlast, List.getLast?_eq_getElem?, List.getElem?_eq_getElem]

/-- A zero behind the lines, and the new line that is taken away for a while. -/
theorem within_ended (b : Buffer) (count : Nat) (c : Prop) [Decidable c] :
    (if count > 0 ∧ c then
      ((b.put count [0]).put (count - 1) [0]).put (count - 1) [0x0a]
      else b.put count [0]).Within MAXLINE ↔ b.Within MAXLINE ∧ count < MAXLINE := by
  split_ifs with hnl
  · simp only [Buffer.within_put, length_singleton, ← and_assoc]
    rw [and_comm]
    refine and_congr_right fun _ => ?_
    omega
  · rw [Buffer.within_put, and_comm]
    exact and_congr_right fun _ => or_iff_right Nat.one_ne_zero

/-- Lines are copied inside if and only if they fit with a zero behind them. -/
theorem saveLines_within (lines : CStr) (b : Buffer) :
    (saveLines lines b).Within MAXLINE ↔ b.Within MAXLINE ∧ lineCount lines < MAXLINE := by
  have hnl : (lines.length > 0 ∧ (b.put 0 lines).mem (lines.length - 1) ≠ 0x0a) ↔
      (lines ≠ [] ∧ lines.getLast? ≠ some 0x0a) := by
    rw [gt_iff_lt, length_pos_iff]
    refine and_congr_right fun hne => ?_
    rw [last_of_put b hne, ne_eq, ne_eq, Option.some_inj]
  unfold saveLines lineCount
  simp only [hnl]
  rw [within_ended]
  split_ifs
  · simp only [Buffer.within_put, length_singleton, ← and_assoc]
    rw [and_comm, and_comm (b := b.Within MAXLINE), and_left_comm]
    refine and_congr_right fun _ => ?_
    omega
  · rw [Buffer.within_put, and_comm (b := b.Within MAXLINE), and_assoc]
    refine and_congr_right fun _ => ?_
    omega

/-- The condition on a request. A request that may not modify comes when the position is inside the
    text for it. Otherwise its lines fit, and so do the texts of all errors. -/
def ConfigureOk (associd : BitVec 16) (nomodify : Bool) (lines : CStr) (errors : List YyError)
    (rc : RemoteConfig) : Prop :=
  associd = 0 →
    if nomodify = true then rc.err_pos ≤ prohibited.length
    else lineCount lines < MAXLINE ∧ (errors.flatMap YyError.text).length < MAXLINE

theorem print_start_iff {text : CStr} (hne : ∀ c ∈ text, c ≠ 0) (hlen : text.length < MAXLINE)
    (err_pos no_errors : Nat) :
    (rc.print 0 MAXLINE text err_pos no_errors).Good ↔ rc.Good ∧ err_pos ≤ text.length := by
  rw [print_good_iff]
  refine and_congr_right fun hgood => ?_
  obtain ⟨hwithin, -, hstrlen⟩ :=
    @snprintf_fits rc.err_msg [] text MAXLINE stands_nil hne hlen hlen hgood.err_msg
  rw [length_nil] at hwithin hstrlen
  rw [hstrlen]
  exact and_iff_right hwithin

theorem succeed_good_iff (hstart : rc.no_errors = 0 → rc.err_pos = 0) :
    (succeed rc).Good ↔ rc.Good := by
  unfold succeed
  split_ifs with hnone
  · obtain ⟨text, htext⟩ : ∃ text, octets "Config Succeeded" = text := ⟨_, rfl⟩
    have hne : ∀ c ∈ text, c ≠ 0 := htext ▸ by decide
    have hlen : text.length < MAXLINE := htext ▸ by decide
    rw [htext]
    refine (print_start_iff hne hlen (rc.err_pos + text.length) rc.no_errors).trans
      (and_iff_left ?_)
    rw [hstart hnone, zero_add]
  · exact Iff.rfl

/-- What `configure` leaves is good if and only if it was good before and the request
    meets the condition. -/
theorem configure_good_iff (associd : BitVec 16) (nomodify : Bool) (lines : CStr)
    (errors : List YyError) :
    (configure associd nomodify lines errors rc).1.Good ↔
      rc.Good ∧ ConfigureOk associd nomodify lines errors rc := by
  unfold configure ConfigureOk
  by_cases hassoc : associd = 0
  · rw [if_neg (not_not.mpr hassoc)]
    simp only [hassoc, true_implies]
    by_cases hmodify : nomodify = true
    · rw [if_pos hmodify, if_pos hmodify]
      exact print_start_iff (by decide +kernel) (by decide +kernel) rc.err_pos rc.no_errors
    · rw [if_neg hmodify, if_neg hmodify]
      obtain ⟨rc0, hrc0⟩ : ∃ rc0 : RemoteConfig, { rc with
          buffer := saveLines lines rc.buffer, pos := 0, err_pos := 0, no_errors := 0 } = rc0 :=
        ⟨_, rfl⟩
      rw [hrc0]
      have hmessage : Message rc0 [] := by
        rw [← hrc0]
        exact ⟨stands_nil, by simp, rfl, by decide⟩
      have hgood : rc0.Good ↔ rc.Good ∧ lineCount lines < MAXLINE := by
        rw [← hrc0]
        constructor
        · rintro ⟨hbuffer, hmsg, hseen⟩
          obtain ⟨hbefore, hfits⟩ := (saveLines_within lines rc.buffer).mp hbuffer
          exact ⟨⟨hbefore, hmsg, hseen⟩, hfits⟩
        · rintro ⟨⟨hbefore, hmsg, hseen⟩, hfits⟩
          exact ⟨(saveLines_within lines rc.buffer).mpr ⟨hbefore, hfits⟩, hmsg, hseen⟩
      have hstart : (errors.foldl yyerror rc0).no_errors = 0 →
          (errors.foldl yyerror rc0).err_pos = 0 := by
        rw [errors_no_errors]
        intro hnone
        have hnil : errors = [] := length_eq_zero_iff.mp (by omega)
        rw [hnil]
        exact hmessage.err_pos
      rw [succeed_good_iff hstart, errors_good_iff hmessage, hgood, length_nil, zero_add, and_assoc]
  · rw [if_pos hassoc]
    exact (and_iff_left fun h => absurd h hassoc).symm

theorem checkAuth_associd (rb : CtlRecv autokey) (s : CtlSys) :
    (checkAuth env rb (setUp env rb s)).res_associd = rb.hdr.associd := by
  unfold checkAuth
  split_ifs <;> rfl

theorem processControl_associd (rb : CtlRecv autokey) (s : CtlSys) {op : CtlOp}
    (hop : (processControl env rb s).2 = some op) :
    (processControl env rb s).1.res_associd = rb.hdr.associd := by
  unfold processControl at hop ⊢
  split_ifs at hop ⊢
  simp only at hop ⊢
  split at hop
  · cases hop
  · split_ifs at hop with hpermit
    rw [if_pos hpermit]
    exact checkAuth_associd rb s

/-- The condition on a message. -/
def RemoteOk (env : CtlEnv) (s : RemoteSys) (e : RemoteEvent autokey) : Prop :=
  (processControl env e.rb s.ctl).2 = some .configure →
    ConfigureOk e.rb.hdr.associd e.nomodify e.rb.lines e.errors s.rc

/-- The buffers of a state are good. -/
def RemoteSys.Good (s : RemoteSys) : Prop := s.rc.Good

theorem remoteStep_good_iff (env : CtlEnv) (s : RemoteSys) (e : RemoteEvent autokey) :
    (remoteStep env s e).Good ↔ s.Good ∧ RemoteOk env s e := by
  unfold RemoteSys.Good remoteStep RemoteOk
  by_cases hop : (processControl env e.rb s.ctl).2 = some .configure
  · simp only [hop, if_true, true_implies]
    rw [configure_good_iff, processControl_associd e.rb s.ctl hop]
  · simp only [if_neg hop]
    exact (and_iff_left fun h => absurd h hop).symm

/-- `remote_config` when the daemon starts. -/
def remoteStart : RemoteConfig :=
  { buffer := ⟨fun _ => 0, []⟩, err_msg := ⟨fun _ => 0, []⟩ }

/-- For every sequence of control messages, each of which fits a receive buffer, with any errors in
    their lines: `configure` and `yyerror` write inside both buffers only, and the position is never
    behind the end of the message, if and only if every request meets the condition. -/
theorem remote_config_iff (env : CtlEnv) (ctl : CtlSys) (es : List (RemoteEvent autokey)) :
    (Run.exec (remoteStep env) ⟨ctl, remoteStart⟩ es).rc.Good ↔
      Run.Meets (remoteStep env) (RemoteOk env) ⟨ctl, remoteStart⟩ es := by
  have hstart : remoteStart.Good := ⟨nofun, nofun, nofun⟩
  have hrun := Run.exec_iff_meets (fun _ _ _ => trivial)
    (fun s e (_ : True) => remoteStep_good_iff env s e) ⟨ctl, remoteStart⟩ es trivial
  exact hrun.trans (and_iff_right hstart)

end Requests

/-! ### Requests that are too long -/

/-- A comment of 1100 octets is copied behind the end of `buffer`. And in 23 lines that are not
    allowed there are 23 errors of 47 octets each: after 22 of them the position is behind the end
    of `err_msg`, and the last text is written there. Both requests are accepted. -/
theorem remote_config_overrun :
    let s : RemoteSys := ⟨ctlStart (fun _ => 0) [], remoteStart⟩
    let comment := configRequest (List.replicate 1100 0x23) (by decide +kernel)
    let lines := configRequest (statsdirLines 23) (by decide +kernel)
    let s' := remoteStep md5Env s ⟨lines, false, List.replicate 23 statsdirError⟩
    (processControl md5Env comment s.ctl).2 = some .configure ∧
    ¬ (remoteStep md5Env s ⟨comment, false, []⟩).rc.buffer.Within MAXLINE ∧
    (processControl md5Env lines s.ctl).2 = some .configure ∧
    s'.rc.err_pos = 1081 ∧ ¬ s'.rc.err_msg.Within MAXLINE := by
  decide +kernel

end NtpSuite.Control
