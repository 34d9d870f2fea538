import NtpSuite.Core.CtlRequest
import NtpSuite.Theory.CtlResponse

/-!
# What the Items of a Request Can Do

Two assertions that depend on the text of a request.

The functions that read system variables and variables of a clock look up an item in
the variables that are built in and then, if it is none of these, in those that were
added. They insist that the second lookup does not return the null pointer. It does
not at the end of the data, because there the first lookup has returned it already. But
it does after an error, when the item is that of a variable that was added and has a
value of 128 characters or more.

`read_mru_list` converts addresses with `decodenetnum`, which insists on less than 80
characters. The items have values of up to 127 characters.

A loop over items ends because every item shortens the data.

## Main definitions

* `Overlong`: The next item is that of a variable and has a long value.
* `ShortExtras`: No item of a variable that was added has a long value.
* `Refuses`: The next item can not be written.
* `ShortAddrs`: No address is too long.

## Theorems

* `ctlGetitem_overlong`: When `ctl_getitem` reports an error.
* `second_lookups_hold`: The assertions about the second lookup.
* `write_atomic_iff`: When a request that is refused writes nothing.
* `netnums_fit`: The assertion of `decodenetnum`.
-/

namespace NtpSuite.Control

open Ntpq (isspace trimEnd cstring COMMA EQUALS)
open List

/-! ### The next item -/

/-- The next item is that of a variable in the list, with a value that does not fit into
    the buffer. -/
def Overlong (var_list : List CtlVar) (reqpt : CStr) : Prop :=
  ∃ code v rest, lookup (skipSeps reqpt) var_list = some (code, v, rest) ∧
    rest.head? = some EQUALS ∧
    ITEM_SIZE ≤ (((rest.drop 1).dropWhile isspace).takeWhile (· ≠ COMMA)).length

variable {t : CStr} {v : CtlVar}

theorem spelled_length {cp rest : CStr} (h : v.spelled cp = some rest) :
    cp ≠ [] ∧ rest.length ≤ cp.length := by
  unfold CtlVar.spelled at h
  simp only at h
  split_ifs at h with hname
  obtain ⟨-, hhead, -⟩ := hname
  obtain rfl := Option.some.inj h
  constructor
  · rintro rfl
    cases hhead
  · exact (length_dropWhile_le _ _).trans ((drop_sublist _ _).length_le)

variable {vars : List CtlVar}

theorem lookup_spelled {cp : CStr} {code : Nat} {rest : CStr}
    (h : lookup cp vars = some (code, v, rest)) : v.spelled cp = some rest := by
  induction vars generalizing code with
  | nil => cases h
  | cons w vars ih =>
    unfold lookup at h
    cases hw : w.spelled cp with
    | some r =>
      rw [hw] at h
      cases h
      exact hw
    | none =>
      rw [hw] at h
      obtain ⟨⟨k, u⟩, hk, hu⟩ := Option.map_eq_some_iff.mp h
      cases hu
      exact ih hk

theorem ctlGetitem_shortens {data r : CStr} {code : Nat}
    (h : ctlGetitem vars t = .var code v data r) : r.length < t.length := by
  unfold ctlGetitem at h
  simp only at h
  split_ifs at h with hnil
  have hskip : (skipSeps t).length ≤ t.length := length_dropWhile_le _ _
  cases hl : lookup (skipSeps t) vars with
  | none =>
    rw [hl] at h
    cases h
  | some found =>
    obtain ⟨k, w, rest⟩ := found
    rw [hl] at h
    obtain ⟨hne, hlen⟩ := spelled_length (lookup_spelled hl)
    have hpos : 0 < (skipSeps t).length := length_pos_iff.mpr hne
    unfold itemValue at h
    simp only at h
    split_ifs at h
    · obtain ⟨-, -, -, rfl⟩ := Getitem.var.inj h
      have hvalue := length_dropWhile_le (· ≠ COMMA) ((rest.drop 1).dropWhile isspace)
      have hblank := length_dropWhile_le isspace (rest.drop 1)
      simp only [length_drop] at hblank ⊢
      omega
    · obtain ⟨-, -, -, rfl⟩ := Getitem.var.inj h
      rw [length_drop]
      omega

theorem ctlGetitem_finish : ctlGetitem vars t = .finish ↔ skipSeps t = [] := by
  unfold ctlGetitem itemValue
  simp only
  constructor
  · intro h
    by_contra hne
    rw [if_neg hne] at h
    split at h
    · cases h
    · split_ifs at h
  · intro h
    rw [if_pos h]

theorem lookup_nil (vars : List CtlVar) : lookup [] vars = none := by
  induction vars with
  | nil => rfl
  | cons v vars ih =>
    have hv : v.spelled [] = none := by
      unfold CtlVar.spelled
      rw [if_neg]
      rintro ⟨-, hhead, -⟩
      cases hhead
    unfold lookup
    rw [hv, ih]
    rfl

theorem ctlGetitem_eov :
    ctlGetitem vars t = .eov ↔ skipSeps t ≠ [] ∧ lookup (skipSeps t) vars = none := by
  unfold ctlGetitem itemValue
  by_cases hnil : skipSeps t = []
  · rw [if_pos hnil]
    exact ⟨fun h => Getitem.noConfusion h, fun h => absurd hnil h.1⟩
  · rw [if_neg hnil]
    cases hl : lookup (skipSeps t) vars with
    | none => exact ⟨fun _ => ⟨hnil, rfl⟩, fun _ => rfl⟩
    | some found =>
      constructor
      · intro h
        simp only at h
        split_ifs at h
      · rintro ⟨-, h⟩
        cases h

theorem ctlGetitem_overlong : ctlGetitem vars t = .overlong ↔ Overlong vars t := by
  unfold ctlGetitem Overlong
  by_cases hnil : skipSeps t = []
  · rw [hnil, lookup_nil]
    simp
  · rw [if_neg hnil]
    cases hl : lookup (skipSeps t) vars with
    | none => simp
    | some found =>
      obtain ⟨code, v, rest⟩ := found
      simp only [itemValue]
      constructor
      · intro h
        split_ifs at h with heq hlong
        exact ⟨code, v, rest, rfl, heq, hlong⟩
      · rintro ⟨code', v', rest', hsome, heq, hlong⟩
        cases hsome
        rw [if_pos heq, if_pos hlong]

/-! ### The second lookup -/

section Lookups

variable {built kv : List CtlVar} {maxcode : Nat} {data : CStr}

theorem wantTurn_shortens {s t : Wanting} (h : wantTurn built maxcode kv s = .inl t) :
    t.reqpt.length < s.reqpt.length := by
  unfold wantTurn at h
  split at h
  case h_1 => cases h
  case h_2 => cases h
  case h_3 hitem =>
    obtain rfl := Sum.inl.inj h
    exact ctlGetitem_shortens hitem
  case h_4 =>
    split at h
    case h_4 hitem =>
      obtain rfl := Sum.inl.inj h
      exact ctlGetitem_shortens hitem
    all_goals cases h

theorem wantTurn_insist {s : Wanting} {overlong : Bool} :
    wantTurn built maxcode kv s = .inr (.insist overlong) ↔
      overlong = true ∧ lookup (skipSeps s.reqpt) built = none ∧ Overlong kv s.reqpt := by
  constructor
  · intro h
    unfold wantTurn at h
    split at h
    case h_1 => cases h
    case h_2 => cases h
    case h_3 => cases h
    case h_4 hfirst =>
      obtain ⟨hne, hnone⟩ := ctlGetitem_eov.mp hfirst
      split at h
      case h_1 hsecond => exact absurd (ctlGetitem_finish.mp hsecond) hne
      case h_2 hsecond =>
        cases h
        exact ⟨rfl, hnone, ctlGetitem_overlong.mp hsecond⟩
      all_goals cases h
  · rintro ⟨rfl, hnone, hlong⟩
    have hne : skipSeps s.reqpt ≠ [] := by
      intro hnil
      obtain ⟨code, v, rest, hsome, -⟩ := hlong
      rw [hnil, lookup_nil] at hsome
      cases hsome
    unfold wantTurn
    rw [ctlGetitem_eov.mpr ⟨hne, hnone⟩, ctlGetitem_overlong.mpr hlong]

theorem wantItems_eq_iff {r : Wanted} :
    wantItems built maxcode kv data = r ↔
      ∃ s, Loop.Heads (wantTurn built maxcode kv) ⟨data, []⟩ s ∧
        wantTurn built maxcode kv s = .inr r := by
  refine Loop.turns_eq_iff Wanted.unknown (fun s : Wanting => s.reqpt.length) ?_
    (Nat.lt_succ_self data.length)
  intro s t h
  exact wantTurn_shortens h

/-- No item that the loop comes to and that is not built in is that of a variable which was
    added and has a long value. -/
def ShortExtras (built : List CtlVar) (maxcode : Nat) (kv : List CtlVar) (data : CStr) : Prop :=
  ∀ s, Loop.Heads (wantTurn built maxcode kv) ⟨data, []⟩ s →
    lookup (skipSeps s.reqpt) built = none → ¬ Overlong kv s.reqpt

theorem not_insist_iff :
    (∀ overlong, wantItems built maxcode kv data ≠ .insist overlong) ↔
      ShortExtras built maxcode kv data := by
  constructor
  · intro h s hs hnone hlong
    exact h true (wantItems_eq_iff.mpr ⟨s, hs, wantTurn_insist.mpr ⟨rfl, hnone, hlong⟩⟩)
  · intro h overlong heq
    obtain ⟨s, hs, hturn⟩ := wantItems_eq_iff.mp heq
    obtain ⟨-, hnone, hlong⟩ := wantTurn_insist.mp hturn
    exact h s hs hnone hlong

end Lookups

/-- The assertions of `read_sysvars` and `read_clockstatus` hold if and only if no value of a
    variable that was added is too long. -/
theorem second_lookups_hold (autokey : Bool) (ext_sys_var kv_list : List CtlVar) (data : CStr) :
    ((∀ overlong, wantItems (sysVar autokey) (CS_MAXCODE autokey) ext_sys_var data ≠
        .insist overlong) ∧
      ∀ overlong, wantItems clockVar CC_MAXCODE kv_list data ≠ .insist overlong) ↔
    ShortExtras (sysVar autokey) (CS_MAXCODE autokey) ext_sys_var data ∧
      ShortExtras clockVar CC_MAXCODE kv_list data :=
  and_congr not_insist_iff not_insist_iff

/-- A variable of an administrator, and a request that gives it a value of 128 characters. -/
theorem second_lookup_trips :
    wantItems (sysVar false) (CS_MAXCODE false) [⟨RO ||| DEF, octets "site=a"⟩]
      (octets "site=" ++ List.replicate 128 0x61) = .insist true ∧
    wantItems clockVar CC_MAXCODE [⟨RO ||| DEF, octets "site=a"⟩]
      (octets "site=" ++ List.replicate 128 0x61) = .insist true := by
  decide +kernel

/-! ### Writing -/

section Writing

variable {built : List CtlVar} {s : Writing}

/-- The next item is not that of a variable that was added and may be written, or its value is
    too long. -/
def Refuses (built : List CtlVar) (s : Writing) : Prop :=
  skipSeps s.reqpt ≠ [] ∧ ∀ code v data reqpt, lookup (skipSeps s.reqpt) built = none →
    ctlGetitem s.ext_sys_var s.reqpt = .var code v data reqpt → v.flags &&& CAN_WRITE = 0

theorem writeTurn_shortens {t : Writing} (h : writeTurn built s = .inl t) :
    t.reqpt.length < s.reqpt.length := by
  unfold writeTurn at h
  split at h
  case h_4 =>
    split at h
    case h_4 hitem =>
      split_ifs at h
      obtain rfl := Sum.inl.inj h
      exact ctlGetitem_shortens hitem
    all_goals cases h
  all_goals cases h

/-- The loop ends without a change, and with an error if the item is refused. -/
theorem writeTurn_ends {r : Writing × Written} (h : writeTurn built s = .inr r) :
    r.1 = s ∧ (r.2 ≠ .finish ↔ Refuses built s) := by
  have hbuilt : ∀ {g}, ctlGetitem built s.reqpt = g → g ≠ .finish → g ≠ .eov →
      Refuses built s := by
    intro g hg hfinish heov
    have hne : skipSeps s.reqpt ≠ [] := fun h => hfinish (hg.symm.trans (ctlGetitem_finish.mpr h))
    exact ⟨hne, fun _ _ _ _ hnone =>
      absurd (hg.symm.trans (ctlGetitem_eov.mpr ⟨hne, hnone⟩)) heov⟩
  unfold writeTurn at h
  split at h
  case h_1 hitem =>
    cases h
    exact ⟨rfl, absurd rfl, fun hr => absurd (ctlGetitem_finish.mp hitem) hr.1⟩
  case h_2 hitem =>
    cases h
    exact ⟨rfl, iff_of_true nofun (hbuilt hitem nofun nofun)⟩
  case h_3 hitem =>
    cases h
    exact ⟨rfl, iff_of_true nofun (hbuilt hitem nofun nofun)⟩
  case h_4 hfirst =>
    obtain ⟨hne, -⟩ := ctlGetitem_eov.mp hfirst
    split at h
    case h_1 hitem => exact absurd (ctlGetitem_finish.mp hitem) hne
    case h_4 hitem =>
      split_ifs at h with hflags
      cases h
      refine ⟨rfl, iff_of_true nofun ⟨hne, fun _ _ _ _ _ hvar => ?_⟩⟩
      cases hitem.symm.trans hvar
      exact hflags
    all_goals
      rename_i hitem
      cases h
      exact ⟨rfl, iff_of_true nofun ⟨hne, fun _ _ _ _ _ hvar => nomatch hitem.symm.trans hvar⟩⟩

theorem writeTurn_refuses (h : Refuses built s) : ∃ r, writeTurn built s = .inr r := by
  cases hturn : writeTurn built s with
  | inr r => exact ⟨r, rfl⟩
  | inl t =>
    unfold writeTurn at hturn
    split at hturn
    case h_4 hfirst =>
      split at hturn
      case h_4 hitem =>
        rw [if_pos (h.2 _ _ _ _ (ctlGetitem_eov.mp hfirst).2 hitem)] at hturn
        cases hturn
      all_goals cases hturn
    all_goals cases hturn

theorem writeItems_eq_iff {data : CStr} {ext : List CtlVar} {r : Writing × Written} :
    writeItems built data ext = r ↔
      ∃ s, Loop.Heads (writeTurn built) ⟨data, ext⟩ s ∧ writeTurn built s = .inr r := by
  refine Loop.turns_eq_iff _ (fun s : Writing => s.reqpt.length) ?_ (Nat.lt_succ_self data.length)
  intro s t h
  exact writeTurn_shortens h

end Writing

theorem writeVariables_ext (env : CtlEnv) (d : CtlDaemon) (autokey : Bool) (data : CStr)
    (h : CtlSrv) :
    (writeVariables env d autokey data h).ext_sys_var = if h.ctl.res_associd ≠ 0 then
      h.ext_sys_var else (writeItems (sysVar autokey) data h.ext_sys_var).1.ext_sys_var := by
  unfold writeVariables
  split_ifs
  · rfl
  · simp only
    split <;> rfl

/-- `write_variables` reports an error. -/
def WriteError (autokey : Bool) (data : CStr) (h : CtlSrv) : Prop :=
  h.ctl.res_associd ≠ 0 ∨ (writeItems (sysVar autokey) data h.ext_sys_var).2 ≠ .finish

section Addrs

variable {lib : Libc} {getinterface : SockAddr → Option Nat} {data : CStr}

theorem mruTurn_shortens {s t : MruParse} (h : mruTurn lib getinterface s = .inl t) :
    t.reqpt.length < s.reqpt.length := by
  unfold mruTurn at h
  split at h
  case h_4 hitem =>
    have hlow := ctlGetitem_shortens hitem
    simp only at h
    split_ifs at h
    all_goals
      obtain rfl := Sum.inl.inj h
      exact hlow
  all_goals cases h

/-- No address that the loop comes to is too long for `decodenetnum`. -/
def ShortAddrs (lib : Libc) (getinterface : SockAddr → Option Nat) (data : CStr) : Prop :=
  ∀ s, Loop.Heads (mruTurn lib getinterface) { reqpt := data } s → ∀ code v val reqpt,
    ctlGetitem inParms s.reqpt = .var code v val reqpt → (MruParm.ofCode code).isAddr = true →
      (cstring val).length < NETNUM_SIZE

/-- One turn: every address was short, or the loop ends with one that is not. -/
theorem mruTurn_decoded {s : MruParse} (hs : ∀ num ∈ s.decoded, num.length < NETNUM_SIZE) :
    (∀ t, mruTurn lib getinterface s = .inl t → ∀ num ∈ t.decoded, num.length < NETNUM_SIZE) ∧
    ∀ r, mruTurn lib getinterface s = .inr r →
      ((∀ num ∈ r.1.decoded, num.length < NETNUM_SIZE) ↔
        ∀ code v val reqpt, ctlGetitem inParms s.reqpt = .var code v val reqpt →
          (MruParm.ofCode code).isAddr = true → (cstring val).length < NETNUM_SIZE) := by
  unfold mruTurn
  cases hitem : ctlGetitem inParms s.reqpt with
  | finish | overlong | eov =>
    simpa using hs
  | var code v val reqpt =>
    simp only
    split_ifs with haddr hlong
    · refine ⟨nofun, fun r h => ?_⟩
      cases h
      constructor
      · intro hall
        exact absurd (hall (cstring val) (by simp)) (not_lt.mpr hlong)
      · intro hall
        exact absurd (hall code v val reqpt rfl haddr) (not_lt.mpr hlong)
    · refine ⟨fun t h => ?_, nofun⟩
      cases h
      exact forall_mem_cons.mpr ⟨not_le.mp hlong, hs⟩
    · refine ⟨fun t h => ?_, nofun⟩
      cases h
      exact hs

/-- At every turn but the last, the addresses were short. -/
theorem heads_decoded {s : MruParse}
    (h : Loop.Heads (mruTurn lib getinterface) { reqpt := data } s) :
    ∀ num ∈ s.decoded, num.length < NETNUM_SIZE := by
  have hinv : ∀ s t, (∀ num ∈ s.decoded, num.length < NETNUM_SIZE) →
      mruTurn lib getinterface s = .inl t → ∀ num ∈ t.decoded, num.length < NETNUM_SIZE :=
    fun s t hs ht => (mruTurn_decoded hs).1 t ht
  exact Loop.Heads.invariant hinv (fun num hnum => (by cases hnum)) h

theorem mruItems_eq_iff {r : MruParse × MruEnd} :
    mruItems lib getinterface data = r ↔
      ∃ s, Loop.Heads (mruTurn lib getinterface) { reqpt := data } s ∧
        mruTurn lib getinterface s = .inr r := by
  refine Loop.turns_eq_iff _ (fun s : MruParse => s.reqpt.length) ?_ (Nat.lt_succ_self data.length)
  intro s t h
  exact mruTurn_shortens h

theorem decoded_iff :
    (∀ num ∈ (mruItems lib getinterface data).1.decoded, num.length < NETNUM_SIZE) ↔
      ShortAddrs lib getinterface data := by
  constructor
  · intro hall s hs code v val reqpt hitem haddr
    by_contra hlong
    have hturn : mruTurn lib getinterface s =
        .inr ({ s with decoded := cstring val :: s.decoded }, .insist) := by
      unfold mruTurn
      rw [hitem]
      simp only
      rw [if_pos haddr, if_pos (not_lt.mp hlong)]
    rw [mruItems_eq_iff.mpr ⟨s, hs, hturn⟩] at hall
    exact hlong (hall (cstring val) mem_cons_self)
  · intro hshort
    obtain ⟨s, hs, hend⟩ := mruItems_eq_iff.mp (rfl : mruItems lib getinterface data = _)
    exact ((mruTurn_decoded (heads_decoded hs)).2 _ hend).mpr (hshort s hs)

end Addrs

/-- What `read_mru_list` gives to `decodenetnum`. -/
def netnums (d : CtlDaemon) (data : CStr) : List CStr :=
  if d.restricts RES_NOMRULIST then [] else (mruItems d.lib d.getinterface data).1.decoded

/-- The assertion of `decodenetnum` holds if and only if no address of the request is too long. -/
theorem netnums_fit (d : CtlDaemon) (data : CStr) :
    (∀ num ∈ netnums d data, num.length < NETNUM_SIZE) ↔
      d.restricts RES_NOMRULIST = true ∨ ShortAddrs d.lib d.getinterface data := by
  unfold netnums
  split_ifs with hres
  · exact iff_of_true (nofun) (Or.inl hres)
  · rw [decoded_iff]
    exact (or_iff_right hres).symm

/-- A C library that converts nothing. -/
def noLibc : Libc where
  getaddrinfo _ := none
  scanHu _ := none
  scanU _ := none
  scanD _ := none
  scanHx _ := none
  scanTs _ := none

/-- A daemon without associations, for a request with no restrictions. -/
def quietDaemon : CtlDaemon where
  restrict_mask := 0
  recv_srcadr := {}
  dstadr := 0
  current_time := 0
  ctlsysstatus := 0xc016
  putsys _ := []
  findpeerbyassoc _ := none
  peer_list := []
  sys_peer := none
  hasRefclock := true
  conf := ⟨[], [], md5Env⟩
  saveRun := none
  lib := noLibc
  getinterface _ := none
  validate_nonce _ := false
  mon := {}
  mru := ⟨fun _ => [], fun _ => (by decide), fun _ => 0, fun _ => ([], 0), [], by decide, 0⟩
  ifstats := []
  addr_restrictions := []

/-- A request with an address of 80 characters, and without a nonce. -/
theorem netnum_too_long :
    netnums quietDaemon (octets "laddr=" ++ List.replicate 80 0x31) = [List.replicate 80 0x31] ∧
    ¬ (List.replicate 80 (0x31 : BitVec 8)).length < NETNUM_SIZE := by
  decide

end NtpSuite.Control
