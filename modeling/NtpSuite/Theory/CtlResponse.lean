import NtpSuite.Core.Configure
import NtpSuite.Lib.Run

/-!
# Room in a Control Response

Where `ctl_putdata` and `ctl_flushpkt` write. Room is checked for one item, with
three octets for what follows it. But the separator stands in the packet before
the check, an item that is larger than a packet is copied after the flush all
the same, and a packet that is sent gets padding and an authenticator.

For one call, what is written last is known from the variables before the call.
So whether everything is inside `rpkt.u.data` is an inequality for each call, and
a run is inside if and only if all of its calls meet theirs. Items of up to 473
octets always do if the authenticator is not longer than the buffer allows for.

## Main definitions

* `flushEnd`: Where a packet that is sent ends.
* `PutOk`, `EventOk`: The condition on a call.

## Theorems

* `flush_safe_iff`, `putdata_safe_iff`: What one call writes.
* `response_inside_iff`: What a run writes.
* `short_items_inside`: Items that always fit.
-/

namespace NtpSuite.Control

open Reading

/-! ### Writes -/

section Writes

variable {env : CtlEnv} {s : CtlSys}

/-- Nothing was written outside `rpkt.u.data`. -/
def Safe (s : CtlSys) : Prop := s.data.Within CTL_DATA_SIZE

/-- The octets that are in use are inside if all writes were. -/
def PtOk (s : CtlSys) : Prop := Safe s → s.datapt ≤ CTL_DATA_SIZE

theorem put_safe_iff (bs : CStr) :
    Safe (s.put bs) ↔ (bs.length = 0 ∨ s.datapt + bs.length ≤ CTL_DATA_SIZE) ∧ Safe s :=
  Buffer.within_put

theorem PtOk.put (hpt : PtOk s) (bs : CStr) : PtOk (s.put bs) := by
  intro hsafe
  obtain ⟨hroom, hbefore⟩ := (put_safe_iff bs).mp hsafe
  have hle := hpt hbefore
  change s.datapt + bs.length ≤ CTL_DATA_SIZE
  omega

/-- Octets are written at once if there is room for the last one. -/
theorem PtOk.put_safe_iff (hpt : PtOk s) (bs : CStr) :
    Safe (s.put bs) ↔ Safe s ∧ s.datapt + bs.length ≤ CTL_DATA_SIZE := by
  rw [Control.put_safe_iff, and_comm]
  refine and_congr_right fun hsafe => ?_
  have hle := hpt hsafe
  omega

theorem length_padding (len k : Nat) : (padding len k).length = (k - len % k) % k :=
  List.length_replicate

/-- The turn of the loop over the traps. -/
def sendTrap (env : CtlEnv) (sendlen : Nat) (s : CtlSys) (t : CtlTrap) : CtlSys :=
  if t.inuse then
    { s with rpkt := { s.rpkt with
        li_vn_mode := pktLiVnMode env.sys_leap t.tr_version MODE_CONTROL
        sequence := t.tr_sequence } }.send sendlen
  else s

theorem sendTraps_data (env : CtlEnv) (more : Bool) (sendlen : Nat) (s : CtlSys) :
    (sendTraps env more sendlen s).data = s.data := by
  have hfold : ∀ (ts : List CtlTrap) (s : CtlSys),
      (ts.foldl (sendTrap env sendlen) s).data = s.data := by
    intro ts
    induction ts with
    | nil => exact fun _ => rfl
    | cons t ts ih =>
      intro s
      rw [List.foldl_cons, ih]
      unfold sendTrap
      split_ifs <;> rfl
  exact hfold s.ctl_traps s

theorem sendMac_safe_iff (off : Nat) :
    Safe (s.sendMac env off) ↔
      Safe s ∧ off + (4 + env.digestsize s.res_keyid) ≤ CTL_DATA_SIZE := by
  change ((s.data.put off (Exten.htonl s.res_keyid)).put (off + 4)
    (env.authencrypt s.res_keyid _).2).Within CTL_DATA_SIZE ↔ _
  have hkeyid : (Exten.htonl s.res_keyid).length = 4 := rfl
  rw [Buffer.within_put, Buffer.within_put, env.length_digest, ← and_assoc, and_comm]
  refine and_congr_right fun _ => ?_
  omega

/-- An error has no data, so an authenticator of any length has room. -/
theorem ctlError_safe_iff (errcode : CtlErr) : Safe (ctlError env errcode s) ↔ Safe s := by
  unfold ctlError
  simp only
  split_ifs with hauth
  · rw [sendMac_safe_iff]
    refine and_iff_left ?_
    have hle := env.digestsize_le s.res_keyid
    unfold EVP_MAX_MD_SIZE at hle
    change 0 + (4 + env.digestsize s.res_keyid) ≤ CTL_DATA_SIZE
    unfold CTL_DATA_SIZE
    omega
  · exact Iff.rfl

end Writes

/-! ### Packets that are sent -/

section Flush

variable {env : CtlEnv} {s : CtlSys}

/-- Where the data of a packet with `n` octets ends when it is sent: with padding to
    a multiple of four octets, or of eight and an authenticator. -/
def flushEnd (env : CtlEnv) (s : CtlSys) (n : Nat) : Nat :=
  if s.res_async = false ∧ s.authenticates env = true then
    (CTL_HEADER_LEN + n + 7) / 8 * 8 - CTL_HEADER_LEN + (4 + env.digestsize s.res_keyid)
  else (CTL_HEADER_LEN + n + 3) / 4 * 4 - CTL_HEADER_LEN

/-- The octets of the last packet, with the trailing CR LF. -/
def trailed (s : CtlSys) : Nat :=
  if s.datanotbinflag = true ∧ s.datapt + 2 < CTL_MAX_DATA_LEN then s.datapt + 2 else s.datapt

theorem le_flushEnd (env : CtlEnv) (s : CtlSys) (n : Nat) : n ≤ flushEnd env s n := by
  unfold flushEnd CTL_HEADER_LEN
  split_ifs <;> omega

theorem sendAuth_safe_iff (env : CtlEnv) (hpt : PtOk s) :
    Safe (sendAuth env s) ↔
      Safe s ∧ (CTL_HEADER_LEN + s.datapt + 7) / 8 * 8 - CTL_HEADER_LEN +
        (4 + env.digestsize s.res_keyid) ≤ CTL_DATA_SIZE := by
  obtain ⟨s1, hs1⟩ : ∃ s1, s.put (padding (CTL_HEADER_LEN + s.datapt) 8) = s1 := ⟨_, rfl⟩
  have hpt1 : s1.datapt = (CTL_HEADER_LEN + s.datapt + 7) / 8 * 8 - CTL_HEADER_LEN := by
    rw [← hs1]
    change s.datapt + (padding (CTL_HEADER_LEN + s.datapt) 8).length = _
    rw [length_padding]
    omega
  have hkey1 : s1.res_keyid = s.res_keyid := by
    rw [← hs1]
    rfl
  have hsafe1 : Safe s1 ↔ Safe s ∧ s1.datapt ≤ CTL_DATA_SIZE := by
    rw [← hs1]
    exact hpt.put_safe_iff _
  have hkeyid : ∀ w, (Exten.htonl w).length = 4 := fun _ => rfl
  unfold sendAuth
  simp only [hs1]
  rw [sendMac_safe_iff]
  change (s1.data.put s1.datapt (Exten.htonl s1.res_keyid)).Within CTL_DATA_SIZE ∧
    s1.datapt + (4 + env.digestsize s1.res_keyid) ≤ CTL_DATA_SIZE ↔ _
  rw [Buffer.within_put, hkeyid, hkey1, ← hpt1]
  change (_ ∧ Safe s1) ∧ _ ↔ _
  rw [hsafe1]
  constructor
  · rintro ⟨⟨_, hsafe, _⟩, hend⟩
    exact ⟨hsafe, hend⟩
  · rintro ⟨hsafe, hend⟩
    exact ⟨⟨.inr (by omega), hsafe, by omega⟩, hend⟩

theorem sendOut_safe_iff (env : CtlEnv) (more : Bool) (hpt : PtOk s) (hpad : s.datapt % 4 = 0) :
    Safe (sendOut env more s) ↔ Safe s ∧ flushEnd env s s.datapt ≤ CTL_DATA_SIZE := by
  -- without an authenticator nothing is written
  have hplain : ¬ (s.res_async = false ∧ s.authenticates env = true) →
      (Safe s ↔ Safe s ∧ flushEnd env s s.datapt ≤ CTL_DATA_SIZE) := by
    intro hnone
    have hend : (CTL_HEADER_LEN + s.datapt + 3) / 4 * 4 - CTL_HEADER_LEN = s.datapt := by
      unfold CTL_HEADER_LEN
      omega
    rw [flushEnd, if_neg hnone, hend]
    exact (and_iff_left_of_imp hpt).symm
  unfold sendOut
  by_cases hasync : s.res_async = true
  · rw [if_pos hasync]
    unfold Safe
    rw [sendTraps_data]
    exact hplain (by simp [hasync])
  · rw [if_neg hasync]
    by_cases hauth : s.authenticates env = true
    · rw [if_pos hauth, sendAuth_safe_iff env hpt, flushEnd,
        if_pos ⟨Bool.eq_false_iff.mpr hasync, hauth⟩]
    · rw [if_neg hauth]
      exact hplain fun h => hauth h.2

theorem trail_datapt (s : CtlSys) : (trail false s).datapt = trailed s := by
  unfold trail trailed
  by_cases hnl : s.datanotbinflag = true ∧ s.datapt + 2 < CTL_MAX_DATA_LEN
  · rw [if_pos (by simpa using hnl), if_pos hnl]
    rfl
  · rw [if_neg (by simpa using hnl), if_neg hnl]

theorem PtOk.trail (hpt : PtOk s) (more : Bool) : PtOk (trail more s) := by
  unfold Control.trail
  split_ifs
  · exact hpt.put _
  · exact hpt

theorem trail_safe_iff (more : Bool) (hpt : PtOk s) :
    Safe (trail more s) ↔ Safe s ∧ (trail more s).datapt ≤ CTL_DATA_SIZE := by
  unfold trail
  split_ifs
  · exact hpt.put_safe_iff _
  · exact (and_iff_left_of_imp hpt).symm

theorem flushEnd_trail (more : Bool) (n : Nat) :
    flushEnd env (trail more s) n = flushEnd env s n := by
  unfold trail
  split_ifs <;> rfl

theorem flushEnd_padded (env : CtlEnv) (s : CtlSys) (n : Nat) :
    flushEnd env s (n + (4 - (CTL_HEADER_LEN + n) % 4) % 4) = flushEnd env s n := by
  unfold flushEnd CTL_HEADER_LEN
  split_ifs <;> omega

theorem flush_safe_iff (more : Bool) (hpt : PtOk s) :
    Safe (ctlFlushpkt env more s) ↔
      Safe s ∧ flushEnd env s (trail more s).datapt ≤ CTL_DATA_SIZE := by
  obtain ⟨s1, hs1⟩ : ∃ s1, trail more s = s1 := ⟨_, rfl⟩
  have hpt1 : PtOk s1 := hs1 ▸ hpt.trail more
  have hsafe1 : Safe s1 ↔ Safe s ∧ s1.datapt ≤ CTL_DATA_SIZE := hs1 ▸ trail_safe_iff more hpt
  have hend1 : ∀ n, flushEnd env s1 n = flushEnd env s n := hs1 ▸ flushEnd_trail more
  obtain ⟨bs, hbs⟩ : ∃ bs, padding (CTL_HEADER_LEN + s1.datapt) 4 = bs := ⟨_, rfl⟩
  have hlength : bs.length = (4 - (CTL_HEADER_LEN + s1.datapt) % 4) % 4 :=
    hbs ▸ length_padding _ _
  have hpad : (s1.put bs).datapt % 4 = 0 := by
    change (s1.datapt + bs.length) % 4 = 0
    rw [hlength]
    unfold CTL_HEADER_LEN
    omega
  have hout := sendOut_safe_iff (s := fillIn more s1.datapt (s1.put bs)) env more
    (hpt1.put bs) hpad
  have hend : flushEnd env (fillIn more s1.datapt (s1.put bs))
      (fillIn more s1.datapt (s1.put bs)).datapt = flushEnd env s s1.datapt := by
    change flushEnd env s1 (s1.datapt + bs.length) = _
    rw [hlength, flushEnd_padded, hend1]
  unfold ctlFlushpkt
  rw [hs1]
  simp only [hbs]
  change Safe (sendOut env more (fillIn more s1.datapt (s1.put bs))) ↔ _
  rw [hout, hend]
  change Safe (s1.put bs) ∧ _ ↔ _
  rw [hpt1.put_safe_iff, hsafe1]
  have hle : s1.datapt + bs.length ≤ flushEnd env s s1.datapt := by
    rw [← flushEnd_padded, ← hlength]
    exact le_flushEnd env s _
  constructor
  · rintro ⟨⟨⟨hsafe, _⟩, _⟩, hroom⟩
    exact ⟨hsafe, hroom⟩
  · rintro ⟨hsafe, hroom⟩
    exact ⟨⟨⟨hsafe, by omega⟩, by omega⟩, hroom⟩

theorem flush_datapt (more : Bool) : (ctlFlushpkt env more s).datapt = 0 := rfl

end Flush

/-! ### Items -/

section Items

variable {env : CtlEnv} {s : CtlSys}

/-- The octets of a separator. -/
def sepLen (s : CtlSys) (dlen : Nat) (bin : Bool) : Nat :=
  if bin = true ∨ s.datapt = 0 then 0
  else if dlen + (s.datalinelen + 1) + 1 ≥ MAXDATALINELEN then 3 else 2

/-- The condition on an item: it fits into the packet behind a separator, or the
    packet that is sent before it is inside the buffer, and so is the item. -/
def PutOk (env : CtlEnv) (s : CtlSys) (dlen : Nat) (bin : Bool) : Prop :=
  dlen + (if bin = true then 0 else 3) + (s.datapt + sepLen s dlen bin) ≤ CTL_MAX_DATA_LEN ∨
    dlen ≤ CTL_DATA_SIZE ∧ flushEnd env s (s.datapt + sepLen s dlen bin) ≤ CTL_DATA_SIZE

instance (env : CtlEnv) (s : CtlSys) (dlen : Nat) (bin : Bool) :
    Decidable (PutOk env s dlen bin) :=
  inferInstanceAs (Decidable (_ ∨ _))

/-- The variables after the separator. -/
def separated (dlen : Nat) (bin : Bool) (s : CtlSys) : CtlSys :=
  if bin = true then s else separate dlen { s with datanotbinflag := true }

theorem separated_spec (env : CtlEnv) (dlen : Nat) (bin : Bool) (hpt : PtOk s) :
    (separated dlen bin s).datapt = s.datapt + sepLen s dlen bin ∧
      PtOk (separated dlen bin s) ∧
      (Safe (separated dlen bin s) ↔ Safe s ∧ s.datapt + sepLen s dlen bin ≤ CTL_DATA_SIZE) ∧
      ∀ n, flushEnd env (separated dlen bin s) n = flushEnd env s n := by
  have hsame : Safe s ↔ Safe s ∧ s.datapt + 0 ≤ CTL_DATA_SIZE := (and_iff_left_of_imp hpt).symm
  unfold separated sepLen
  by_cases hbin : bin = true
  · rw [if_pos hbin, if_pos (.inl hbin)]
    exact ⟨rfl, hpt, hsame, fun _ => rfl⟩
  · rw [if_neg hbin]
    unfold separate
    by_cases hempty : s.datapt = 0
    · rw [if_neg (not_not.mpr hempty), if_pos (.inr hempty)]
      exact ⟨rfl, hpt, hsame, fun _ => rfl⟩
    · rw [if_pos hempty, if_neg (not_or.mpr ⟨hbin, hempty⟩)]
      have hpt' : PtOk { s with datanotbinflag := true } := hpt
      by_cases hline : dlen + (s.datalinelen + 1) + 1 ≥ MAXDATALINELEN
      · rw [if_pos hline, if_pos hline]
        exact ⟨rfl, hpt'.put _, hpt'.put_safe_iff _, fun _ => rfl⟩
      · rw [if_neg hline, if_neg hline]
        exact ⟨rfl, hpt'.put _, hpt'.put_safe_iff _, fun _ => rfl⟩

/-- The variables when room has been made for an item. -/
def made (env : CtlEnv) (dlen : Nat) (bin : Bool) (s : CtlSys) : CtlSys :=
  if dlen + (if bin = true then 0 else 3) + (separated dlen bin s).datapt > CTL_MAX_DATA_LEN then
    ctlFlushpkt env true (separated dlen bin s)
  else separated dlen bin s

/-- What `ctl_putdata` writes is inside if and only if the item meets the condition. -/
theorem putdata_safe_iff (dp : CStr) (bin : Bool) (hpt : PtOk s) :
    Safe (ctlPutdata env dp bin s) ↔ Safe s ∧ PutOk env s dp.length bin := by
  obtain ⟨hpt1, hok1, hsafe1, hend1⟩ := separated_spec env dp.length bin hpt
  change Safe ((made env dp.length bin s).put dp) ↔ _
  unfold made
  obtain ⟨s1, hs1⟩ : ∃ s1, separated dp.length bin s = s1 := ⟨_, rfl⟩
  obtain ⟨overhead, hover⟩ : ∃ n, (if bin = true then 0 else 3) = n := ⟨_, rfl⟩
  rw [hs1] at hpt1 hok1 hsafe1 hend1 ⊢
  unfold PutOk
  rw [← hpt1, hover]
  rw [← hpt1] at hsafe1
  by_cases hfull : dp.length + overhead + s1.datapt > CTL_MAX_DATA_LEN
  · rw [if_pos hfull, put_safe_iff, flush_safe_iff true hok1, hend1, hsafe1,
      flush_datapt]
    have hle := le_flushEnd env s s1.datapt
    rw [or_iff_right (not_le.mpr hfull)]
    constructor
    · rintro ⟨hitem, ⟨hsafe, _⟩, hroom⟩
      exact ⟨hsafe, by omega, hroom⟩
    · rintro ⟨hsafe, hitem, hroom⟩
      exact ⟨.inr (by omega), ⟨hsafe, by omega⟩, hroom⟩
  · rw [if_neg hfull, hok1.put_safe_iff, hsafe1]
    have hinside : s1.datapt + dp.length ≤ CTL_DATA_SIZE := by
      unfold CTL_MAX_DATA_LEN at hfull
      unfold CTL_DATA_SIZE
      omega
    rw [and_iff_left hinside, and_iff_left (by omega : s1.datapt ≤ CTL_DATA_SIZE),
      and_iff_left (.inl (not_lt.mp hfull))]

theorem PtOk.flush (more : Bool) : PtOk (ctlFlushpkt env more s) := fun _ => Nat.zero_le _

theorem PtOk.putdata (dp : CStr) (bin : Bool) (hpt : PtOk s) : PtOk (ctlPutdata env dp bin s) := by
  obtain ⟨-, hok1, -, -⟩ := separated_spec env dp.length bin hpt
  have hmade : PtOk (made env dp.length bin s) := by
    refine iteInduction (fun _ => PtOk.flush true) fun hfull => ?_
    exact hok1
  exact hmade.put dp

/-- The condition on a tagged string with so many octets around its data. -/
def TaggedOk (env : CtlEnv) (s : CtlSys) (around : Nat) (tag data : CStr) : Prop :=
  if data.length > 0 then
    tag.length + around + data.length ≤ 512 →
      PutOk env s (tag.length + around + data.length) false
  else PutOk env s tag.length false

theorem tagged_safe_iff (before behind tag data : CStr) (hpt : PtOk s) :
    Safe (putTagged env before behind tag data s) ↔
      Safe s ∧ TaggedOk env s (before.length + behind.length) tag data := by
  unfold putTagged TaggedOk
  split_ifs with hdata hfits
  · have hlength : (tag ++ before ++ data ++ behind).length =
        tag.length + (before.length + behind.length) + data.length := by
      simp only [List.length_append]
      omega
    rw [putdata_safe_iff _ false hpt, hlength]
    exact and_congr_right fun _ => ⟨fun h _ => h, fun h => h hfits⟩
  · exact (and_iff_left fun h => absurd h hfits).symm
  · exact putdata_safe_iff tag false hpt

theorem PtOk.tagged (before behind tag data : CStr) (hpt : PtOk s) :
    PtOk (putTagged env before behind tag data s) := by
  unfold putTagged
  split_ifs
  · exact hpt.putdata _ false
  · exact hpt
  · exact hpt.putdata tag false

end Items

/-! ### Runs -/

section Runs

variable {autokey : Bool} {env : CtlEnv} {s : CtlSys}

/-- The condition on a call. -/
def CallOk (env : CtlEnv) (s : CtlSys) : CtlCall → Prop
  | .putdata dp bin => PutOk env s dp.length bin
  | .putstr tag data => TaggedOk env s 3 tag data
  | .putunqstr tag data => TaggedOk env s 1 tag data
  | .flushpkt => flushEnd env s (trailed s) ≤ CTL_DATA_SIZE
  | .error _ => True

/-- The condition on what happens, which is about calls only. -/
def EventOk (env : CtlEnv) (s : CtlSys) : CtlEvent autokey → Prop
  | .call c => s.stopped = false → CallOk env s c
  | _ => True

theorem ctlCall_safe_iff (c : CtlCall) (hpt : PtOk s) :
    Safe (ctlCall env s c) ↔ Safe s ∧ CallOk env s c := by
  cases c with
  | putdata dp bin => exact putdata_safe_iff dp bin hpt
  | putstr tag data | putunqstr tag data => exact tagged_safe_iff _ _ tag data hpt
  | flushpkt =>
    change Safe (ctlFlushpkt env false s) ↔ Safe s ∧ flushEnd env s (trailed s) ≤ CTL_DATA_SIZE
    rw [flush_safe_iff false hpt, trail_datapt]
  | error errcode =>
    change Safe (ctlError env errcode s) ↔ _
    rw [ctlError_safe_iff]
    exact (and_iff_left trivial).symm

theorem ctlError_datapt (errcode : CtlErr) : (ctlError env errcode s).datapt = s.datapt := by
  unfold ctlError
  simp only
  split_ifs <;> rfl

theorem PtOk.error (errcode : CtlErr) (hpt : PtOk s) : PtOk (ctlError env errcode s) := by
  intro hsafe
  rw [ctlError_datapt]
  exact hpt ((ctlError_safe_iff errcode).mp hsafe)

theorem PtOk.call (c : CtlCall) (hpt : PtOk s) : PtOk (ctlCall env s c) := by
  cases c with
  | putdata dp bin => exact hpt.putdata dp bin
  | putstr tag data | putunqstr tag data => exact hpt.tagged _ _ tag data
  | flushpkt => exact PtOk.flush false
  | error errcode => exact hpt.error errcode

/-- What a request does: nothing, or it begins a response, which may be an error. -/
theorem processControl_cases (env : CtlEnv) (rb : CtlRecv autokey) (s : CtlSys) :
    (processControl env rb s).1 = s ∨
      ∃ s', s'.data = s.data ∧ s'.datapt = 0 ∧
        ((processControl env rb s).1 = s' ∨
          ∃ errcode, (processControl env rb s).1 = ctlError env errcode s') := by
  have hauth : (checkAuth env rb (setUp env rb s)).data = s.data ∧
      (checkAuth env rb (setUp env rb s)).datapt = 0 := by
    unfold checkAuth
    split_ifs <;> exact ⟨rfl, rfl⟩
  unfold processControl
  split_ifs with hignored hlength
  · exact .inl rfl
  · exact .inr ⟨setUp env rb s, rfl, rfl, .inr ⟨_, rfl⟩⟩
  · refine .inr ⟨_, hauth.1, hauth.2, ?_⟩
    simp only
    split
    · exact .inr ⟨_, rfl⟩
    · split_ifs
      · exact .inl rfl
      · exact .inr ⟨_, rfl⟩

theorem processControl_safe_iff (rb : CtlRecv autokey) :
    Safe (processControl env rb s).1 ↔ Safe s := by
  rcases processControl_cases env rb s with hsame | ⟨s', hdata, -, hset | ⟨errcode, herr⟩⟩
  · rw [hsame]
  · rw [hset, Safe, hdata]
    rfl
  · rw [herr, ctlError_safe_iff, Safe, hdata]
    rfl

/-- A request leaves `datapt` as it is, or at the beginning. -/
theorem processControl_datapt (env : CtlEnv) (rb : CtlRecv autokey) (s : CtlSys) :
    (processControl env rb s).1 = s ∨ (processControl env rb s).1.datapt = 0 := by
  rcases processControl_cases env rb s with hsame | ⟨s', -, hzero, hset | ⟨errcode, herr⟩⟩
  · exact .inl hsame
  · rw [hset]
    exact .inr hzero
  · rw [herr, ctlError_datapt]
    exact .inr hzero

theorem PtOk.recv (rb : CtlRecv autokey) (hpt : PtOk s) : PtOk (processControl env rb s).1 := by
  rcases processControl_datapt env rb s with hsame | hzero
  · rw [hsame]
    exact hpt
  · intro _
    rw [hzero]
    exact Nat.zero_le _

theorem ctlStep_safe_iff (env : CtlEnv) (e : CtlEvent autokey) (hpt : PtOk s) :
    Safe (ctlStep env s e) ↔ Safe s ∧ EventOk env s e := by
  unfold ctlStep
  by_cases hstop : s.stopped = true
  · rw [if_pos hstop]
    refine (and_iff_left ?_).symm
    cases e with
    | recv rb | report associd status => trivial
    | call c => exact fun h => absurd hstop (by rw [h]; decide)
  · rw [if_neg hstop]
    cases e with
    | recv rb => exact (processControl_safe_iff rb).trans (and_iff_left trivial).symm
    | report associd status => exact (and_iff_left trivial).symm
    | call c =>
      simp only [EventOk, Bool.eq_false_iff.mpr hstop, true_implies]
      exact ctlCall_safe_iff c hpt

theorem PtOk.step (e : CtlEvent autokey) (hpt : PtOk s) : PtOk (ctlStep env s e) := by
  refine iteInduction (fun _ => hpt) fun hstop => ?_
  cases e with
  | recv rb => exact hpt.recv rb
  | report associd status => exact fun _ => Nat.zero_le _
  | call c => exact hpt.call c

/-- The variables when the daemon starts. -/
def ctlStart (data : Memory) (ctl_traps : List CtlTrap) : CtlSys :=
  { data := ⟨data, []⟩, ctl_traps := ctl_traps }

/-- For every sequence of requests, of messages for traps and of calls with items of any length:
    everything that is written to a response, with separators, the trailing CR LF, padding and
    authenticators, is inside `rpkt.u.data` if and only if every call meets its condition. -/
theorem response_inside_iff (env : CtlEnv) (data : Memory) (ctl_traps : List CtlTrap)
    (es : List (CtlEvent autokey)) :
    (Run.exec (ctlStep env) (ctlStart data ctl_traps) es).data.Within CTL_DATA_SIZE ↔
      Run.Meets (ctlStep env) (EventOk env) (ctlStart data ctl_traps) es := by
  have hstart : Safe (ctlStart data ctl_traps) := Buffer.within_nil data
  have hrun := Run.exec_iff_meets (fun _ e (hpt : PtOk _) => hpt.step e)
    (fun _ e (hpt : PtOk _) => ctlStep_safe_iff env e hpt) (ctlStart data ctl_traps) es
    (fun _ => Nat.zero_le _)
  rw [and_iff_right hstart] at hrun
  exact hrun

/-! ### Items that always fit -/

/-- The octets of an item. -/
def itemLen : CtlCall → Nat
  | .putdata dp _ => dp.length
  | .putstr tag data => tag.length + 3 + data.length
  | .putunqstr tag data => tag.length + 1 + data.length
  | _ => 0

/-- The items of a call have at most 473 octets. -/
def ShortItems : CtlEvent autokey → Prop
  | .call c => itemLen c ≤ 473
  | _ => True

theorem putdata_datapt (dp : CStr) (bin : Bool) (hlen : dp.length ≤ 473) :
    (ctlPutdata env dp bin s).datapt ≤ 473 := by
  change (made env dp.length bin s).datapt + dp.length ≤ 473
  unfold made
  by_cases hfull : dp.length + (if bin = true then 0 else 3) +
      (separated dp.length bin s).datapt > CTL_MAX_DATA_LEN
  · rw [if_pos hfull]
    exact (zero_add _).trans_le hlen
  · rw [if_neg hfull]
    unfold CTL_MAX_DATA_LEN at hfull
    omega

theorem tagged_datapt (before behind tag data : CStr) (hpt : s.datapt ≤ 473)
    (hlen : tag.length + (before.length + behind.length) + data.length ≤ 473) :
    (putTagged env before behind tag data s).datapt ≤ 473 := by
  unfold putTagged
  split_ifs
  · refine putdata_datapt _ false ?_
    simp only [List.length_append]
    omega
  · exact hpt
  · exact putdata_datapt tag false (by omega)

theorem ctlStep_datapt (e : CtlEvent autokey) (hshort : ShortItems e) (hpt : s.datapt ≤ 473) :
    (ctlStep env s e).datapt ≤ 473 := by
  refine iteInduction (motive := fun t : CtlSys => t.datapt ≤ 473) (fun _ => hpt) fun _ => ?_
  cases e with
  | recv rb =>
    rcases processControl_datapt env rb s with hsame | hzero
    · exact (congrArg CtlSys.datapt hsame).trans_le hpt
    · exact hzero.trans_le (Nat.zero_le _)
  | report associd status => exact Nat.zero_le _
  | call c =>
    cases c with
    | putdata dp bin => exact putdata_datapt dp bin hshort
    | putstr tag data | putunqstr tag data => exact tagged_datapt _ _ tag data hpt hshort
    | flushpkt => exact Nat.zero_le _
    | error errcode => exact (ctlError_datapt errcode).trans_le hpt

/-- A packet of 476 octets has room for padding and an authenticator of 24. -/
theorem flushEnd_le (hmac : ∀ keyid, env.digestsize keyid ≤ 20) {n : Nat} (hn : n ≤ 476) :
    flushEnd env s n ≤ CTL_DATA_SIZE := by
  have hle := hmac s.res_keyid
  unfold flushEnd CTL_HEADER_LEN CTL_DATA_SIZE MAX_MAC_LEN
  split_ifs <;> omega

theorem sepLen_le (s : CtlSys) (dlen : Nat) (bin : Bool) : sepLen s dlen bin ≤ 3 := by
  unfold sepLen
  split_ifs <;> decide

section

variable (hmac : ∀ keyid, env.digestsize keyid ≤ 20)

include hmac

theorem putOk_of_short (hpt : s.datapt ≤ 473) {dlen : Nat} (hlen : dlen ≤ 473) (bin : Bool) :
    PutOk env s dlen bin := by
  have hsep := sepLen_le s dlen bin
  refine .inr ⟨?_, flushEnd_le hmac (by omega)⟩
  unfold CTL_DATA_SIZE
  omega

theorem taggedOk_of_short (hpt : s.datapt ≤ 473) {around : Nat} {tag data : CStr}
    (hlen : tag.length + around + data.length ≤ 473) : TaggedOk env s around tag data := by
  unfold TaggedOk
  split_ifs
  · exact fun _ => putOk_of_short hmac hpt hlen false
  · exact putOk_of_short hmac hpt (by omega) false

theorem eventOk_of_short (hpt : s.datapt ≤ 473) (e : CtlEvent autokey) (hshort : ShortItems e) :
    EventOk env s e := by
  cases e with
  | recv rb | report associd status => trivial
  | call c =>
    intro _
    cases c with
    | putdata dp bin => exact putOk_of_short hmac hpt hshort bin
    | putstr tag data | putunqstr tag data => exact taggedOk_of_short hmac hpt hshort
    | flushpkt =>
      refine flushEnd_le hmac ?_
      unfold trailed CTL_MAX_DATA_LEN
      split_ifs <;> omega
    | error errcode => trivial

/-- The response is inside, and so is what may follow it. -/
def Small (s : CtlSys) : Prop := Safe s ∧ s.datapt ≤ 473

theorem Small.step (hs : Small s) (e : CtlEvent autokey) (hshort : ShortItems e) :
    Small (ctlStep env s e) := by
  have hpt : PtOk s := fun _ => hs.2.trans (by decide)
  exact ⟨(ctlStep_safe_iff env e hpt).mpr ⟨hs.1, eventOk_of_short hmac hs.2 e hshort⟩,
    ctlStep_datapt e hshort hs.2⟩

/-- Items of at most 473 octets are always inside, with authenticators of at most 24 octets. -/
theorem short_items_inside (data : Memory) (ctl_traps : List CtlTrap)
    (es : List (CtlEvent autokey)) (hshort : ∀ e ∈ es, ShortItems e) :
    Safe (Run.exec (ctlStep env) (ctlStart data ctl_traps) es) := by
  have hmeets : Run.Meets (ctlStep env) (fun _ e => ShortItems e) (ctlStart data ctl_traps) es :=
    Run.meets_of_forall _ fun e he _ => hshort e he
  have hsmall : Small (Run.exec (ctlStep env) (ctlStart data ctl_traps) es) :=
    Run.exec_invariant (fun _ e hs he => hs.step hmac e he) _ es
      ⟨Buffer.within_nil data, Nat.zero_le _⟩ hmeets
  exact hsmall.1

end

end Runs

/-! ### A message with errors -/

/-- Keys of MD5, all of which are trusted. -/
def md5Env : CtlEnv where
  sys_leap := 0
  sys_authenticate := true
  ctl_auth_keyid := 1
  authistrusted := fun _ => true
  authdecrypt := fun _ _ _ => true
  authencrypt := fun _ _ => (20, List.replicate 16 0)
  digestsize := fun _ => 16
  length_digest := fun _ _ => List.length_replicate
  digestsize_le := fun _ => by decide

theorem short_items_inside_item :
    let es : List (CtlEvent true) := [.call (.putdata [0] false), .call .flushpkt]
    Safe (Run.exec (ctlStep md5Env) (ctlStart (fun _ => 0) []) es) :=
  short_items_inside (fun _ => Nat.le_add_right 16 4) _ _ _ (by simp [ShortItems, itemLen])

/-- The octets of a request with lines of a configuration file. -/
def configOctets (lines : CStr) : CStr :=
  [0x16, 8, 0, 1, 0, 0, 0, 0, 0, 0] ++ htons (BitVec.ofNat 16 lines.length) ++ lines ++
    padding (CTL_HEADER_LEN + lines.length) 8 ++ [0, 0, 0, 1] ++ List.replicate 16 0

/-- The request. -/
def configRequest (lines : CStr) (h : (configOctets lines).length ≤ recvSpace true) :
    CtlRecv true :=
  ⟨fun i => (configOctets lines).getD i 0, (configOctets lines).length, h⟩

/-- A line that is not allowed in a request, a number of times. -/
def statsdirLines (k : Nat) : CStr := (List.replicate k (octets "statsdir x\n")).flatten

/-- The error that the parser finds in such a line. -/
def statsdirError : YyError :=
  ⟨10, octets "statsdir remote configuration ignored", by decide +kernel⟩

/-- A request with twelve such lines. It is accepted, and the message with the errors
    fits into `err_msg`. It has 564 octets, which are copied to `rpkt.u.data`. -/
theorem configure_overruns_response :
    let rb := configRequest (statsdirLines 12) (by decide +kernel)
    let s := ctlStart (fun _ => 0) []
    let rc : RemoteConfig := ⟨⟨fun _ => 0, []⟩, ⟨fun _ => 0, []⟩, 0, 0, 0, []⟩
    let r := configure 0 false rb.lines (List.replicate 12 statsdirError) rc
    (processControl md5Env rb s).2 = some .configure ∧
    r.1.err_pos = 564 ∧
    ¬ (Run.exec (ctlStep md5Env) s (.recv rb :: r.2.map .call)).data.Within CTL_DATA_SIZE := by
  decide +kernel

end NtpSuite.Control
