import NtpSuite.Theory.MonitorTable
import NtpSuite.Theory.RestrictCount
import NtpSuite.Lib.LeakyBucket

/-!
# Inbound Rate Control

How many packets of one source pass the rate control of `ntp_monitor`, and how
often it gets a kiss-o'-death packet.

The counter of an entry is a leaky bucket. It drains by the seconds between
packets; a packet that passes raises it by the headway less two seconds of
grace; and the one that first exceeds the average threshold sets it to the
threshold plus the headway. `headway_step` says that the code does this as
long as its `int` arithmetic does not overflow, which is up to a `minpoll` of
27, as nine times two to that power is the largest number that occurs.

The entry of a source lives in a table with others that come and go.
`Tracked.step` follows it: a packet of the source updates it, and every other
step leaves it as it is or takes it away. So as long as it lasts, what the
source gets is a run of the bucket, and the results of the library apply.

## Main definitions

* `headwayBucket`: The bucket of an entry.
* `verdict`: What a mask means.
* `answers`: The intervals and masks of the packets of a source in a run.
* `Lasts`: The entry of a source exists throughout a run.

## Theorems

* `headway_step`: The rate control is a step of the bucket.
* `Tracked.step`: What a step does to the entry of a source.
* `answers_answered`: What a source gets is a run of the bucket.
* `rate_control`: The bounds.
-/

namespace NtpSuite.Mon

open List SockAddr

/-! ### Masks -/

/-- The mask contains `RES_KOD`. -/
def isKod (mask : BitVec 16) : Bool := RES_KOD &&& mask ≠ 0

theorem isKod_eq (mask : BitVec 16) : isKod mask = mask.getLsbD 10 := by
  have hbit : RES_KOD = BitVec.twoPow 16 10 := by decide
  unfold isKod
  rw [hbit, BitVec.and_comm, BitVec.and_twoPow]
  cases mask.getLsbD 10 with
  | false => simp
  | true => decide

@[simp] theorem isLimited_doused (flags : BitVec 16) : isLimited (doused flags) = false := by
  simp [isLimited_eq, doused, RES_LIMITED, RES_KOD]

@[simp] theorem isKod_doused (flags : BitVec 16) : isKod (doused flags) = false := by
  simp [isKod_eq, doused, RES_LIMITED, RES_KOD]

@[simp] theorem isLimited_notKod (flags : BitVec 16) :
    isLimited (~~~RES_KOD &&& flags) = isLimited flags := by
  simp [isLimited_eq, RES_KOD]

@[simp] theorem isKod_notKod (flags : BitVec 16) : isKod (~~~RES_KOD &&& flags) = false := by
  simp [isKod_eq, RES_KOD]

/-! ### The counter of an entry -/

theorem int32_eq {z : Int} (hlo : -2 ^ 31 ≤ z) (hhi : z < 2 ^ 31) : int32 z = z := by
  exact Int.bmod_eq_of_le (by omega) (by omega)

theorem int32_lt (z : Int) : int32 z < 2 ^ 31 := by
  have hlt : z.bmod (2 ^ 32) < (((2 ^ 32 : Nat) : Int) + 1) / 2 := Int.bmod_lt (by decide)
  exact lt_of_lt_of_eq hlt (by norm_num)

theorem interval_lt (recv_time last : LFp) : interval recv_time last < 2 ^ 31 := by
  exact int32_lt _

/-- The bucket of an entry: a packet that passes leaves at most eight times the headway less three,
    and a notice is given below eight times the headway and sets the counter to nine times that. -/
def headwayBucket (k : Knobs) : LeakyBucket.Bucket Int where
  gain := 2 ^ k.ntp_minpoll - 2
  top := 8 * 2 ^ k.ntp_minpoll - 3
  limit := 8 * 2 ^ k.ntp_minpoll
  peak := 9 * 2 ^ k.ntp_minpoll

/-- What the mask means. -/
def verdict (mask : BitVec 16) : LeakyBucket.Verdict :=
  if isLimited mask = false then .pass else if isKod mask = true then .notice else .drop

variable {k : Knobs} {flags : BitVec 16} {s : MonSys} {addr : SockAddr} {e : MonEntry}
  {r : Int × BitVec 16}

/-- The headway in the range where the arithmetic does not overflow. -/
theorem headway_range (hlo : 3 ≤ k.ntp_minpoll) (hhi : k.ntp_minpoll ≤ 27) :
    (8 : Int) ≤ 2 ^ k.ntp_minpoll ∧ (2 : Int) ^ k.ntp_minpoll ≤ 134217728 := by
  constructor
  · calc (8 : Int) = 2 ^ 3 := by norm_num
      _ ≤ 2 ^ k.ntp_minpoll := pow_le_pow_right₀ (by norm_num) hlo
  · calc (2 : Int) ^ k.ntp_minpoll ≤ 2 ^ 27 := pow_le_pow_right₀ (by norm_num) hhi
      _ = 134217728 := by norm_num

theorem headway_congr {k k' : Knobs} (hminpkt : k'.ntp_minpkt = k.ntp_minpkt)
    (hminpoll : k'.ntp_minpoll = k.ntp_minpoll) (d leak : Int) (flags : BitVec 16) :
    headway k' d leak flags = headway k d leak flags := by
  simp only [headway, hminpkt, hminpoll]

/-- The rate control is a step of the bucket, and keeps the counter between zero and the peak. -/
theorem headway_step (hlo : 3 ≤ k.ntp_minpoll) (hhi : k.ntp_minpoll ≤ 27) {d leak : Int}
    (hd : 0 ≤ d) (hd' : d < 2 ^ 31) (hleak : 0 ≤ leak) (hpeak : leak ≤ 9 * 2 ^ k.ntp_minpoll)
    (hlim : isLimited flags = true) (hkod : isKod flags = true) :
    LeakyBucket.Step (headwayBucket k) leak (d, verdict (headway k d leak flags).2)
        (headway k d leak flags).1 ∧
      0 ≤ (headway k d leak flags).1 ∧
      (headway k d leak flags).1 ≤ 9 * 2 ^ k.ntp_minpoll := by
  obtain ⟨hmin, hmax⟩ := headway_range hlo hhi
  generalize hH : (2 : Int) ^ k.ntp_minpoll = H at *
  -- None of the sums overflows.
  have hdrain : int32 (leak - d) = leak - d := int32_eq (by omega) (by omega)
  have hhead : int32 H = H := int32_eq (by omega) (by omega)
  have hshift : ((NTP_SHIFT : Nat) : Int) = 8 := rfl
  have hlimit : int32 (NTP_SHIFT * H) = 8 * H := by
    rw [hshift]
    exact int32_eq (by omega) (by omega)
  have hlevel : LeakyBucket.drained leak d = max 0 (leak - d) := rfl
  have hnonneg : 0 ≤ max 0 (leak - d) := le_max_left _ _
  have hle : max 0 (leak - d) ≤ 9 * H := max_le (by omega) (by omega)
  unfold headway
  simp only [hH, hdrain, hhead, hlimit]
  generalize max 0 (leak - d) = level at *
  have hsum : int32 (level + H) = level + H := int32_eq (by omega) (by omega)
  have hpeakEq : int32 (8 * H + H) = 9 * H := by
    rw [int32_eq (by omega) (by omega)]
    ring
  rw [hsum, hpeakEq]
  split_ifs with hpass hfirst
  · have hgain : int32 (level + H - 2) = level + H - 2 := int32_eq (by omega) (by omega)
    have hverdict : verdict (doused flags) = .pass := by simp [verdict]
    simp only [LeakyBucket.Step, hverdict, hlevel, headwayBucket, hH]
    omega
  · refine ⟨?_, by omega, by omega⟩
    have hverdict : verdict flags = .notice := by simp [verdict, hlim, hkod]
    simp only [LeakyBucket.Step, hverdict, hlevel, headwayBucket, hH]
    exact ⟨hfirst, trivial⟩
  · refine ⟨?_, hnonneg, hle⟩
    have hverdict : verdict (~~~RES_KOD &&& flags) = .drop := by simp [verdict, hlim]
    simp only [LeakyBucket.Step, hverdict, hlevel]

theorem headway_mask (k : Knobs) (d leak : Int) (hlim : isLimited flags = true)
    (hpass : isLimited (headway k d leak flags).2 = false) :
    isKod (headway k d leak flags).2 = false := by
  unfold headway at hpass ⊢
  simp only at hpass ⊢
  split_ifs at hpass ⊢ with hcond hfirst
  · exact isKod_doused flags
  · simp [hlim] at hpass
  · exact isKod_notKod flags

/-! ### The entry of a source -/

/-- There is an entry for the address. -/
def Known (s : MonSys) (addr : SockAddr) : Prop :=
  ∃ m ∈ s.mon_mru_list, (s.mem m).rmtadr.sockEq addr = true

instance (s : MonSys) (addr : SockAddr) : Decidable (Known s addr) :=
  inferInstanceAs (Decidable (∃ _ ∈ _, _))

/-- The entry for the address is `e`. -/
def Tracked (s : MonSys) (addr : SockAddr) (e : MonEntry) : Prop :=
  ∃ m ∈ s.mon_mru_list, s.mem m = e ∧ e.rmtadr.sockEq addr = true

theorem Tracked.unique (h : MonWf s) (ht : Tracked s addr e) {m : Nat} (hm : m ∈ s.mon_mru_list)
    (haddr : (s.mem m).rmtadr.sockEq addr = true) : s.mem m = e := by
  obtain ⟨m', hm', rfl, haddr'⟩ := ht
  rw [h.eq_of_sockEq hm hm' (sockEq_trans haddr (sockEq_symm haddr'))]

theorem Tracked.shrinks {s s' : MonSys} (h : MonWf s) (ht : Tracked s addr e) (hs : Shrinks s s')
    (hknown : Known s' addr) : Tracked s' addr e := by
  obtain ⟨m, hm, haddr⟩ := hknown
  have hmem := hs.mem m hm
  have heq : s.mem m = e := ht.unique h (hs.mru.subset hm) (hmem ▸ haddr)
  exact ⟨m, hm, hmem.trans heq, heq ▸ hmem ▸ haddr⟩

/-- The entry after the event. -/
def afterEvent (addr : SockAddr) (e : MonEntry) : MonEvent → MonEntry
  | .packet k p flags _ => if p.recv_srcadr.sockEq addr then e.again k p flags else e
  | _ => e

theorem Tracked.step (h : MonWf s) (ht : Tracked s addr e) {ev : MonEvent} (hev : EventOk ev)
    (hknown : Known (monStep s ev) addr) : Tracked (monStep s ev) addr (afterEvent addr e ev) := by
  cases ev with
  | start k mode => exact ht.shrinks h (monStart_wf h k mode).2 hknown
  | stop mode => exact ht.shrinks h (monStop_wf h mode).2 hknown
  | clearinterface lcladr => exact ht.shrinks h (monClearinterface_wf h lcladr).2 hknown
  | packet k p flags refuse =>
    obtain ⟨m, hm, rfl, haddr⟩ := ht
    simp only [monStep] at hknown ⊢
    simp only [afterEvent]
    -- A source that nobody on the list is for is not the one in question.
    have hother (hnew : Unknown s p.recv_srcadr) : ¬p.recv_srcadr.sockEq addr = true :=
      fun hsrc => hnew m hm (sockEq_trans haddr (sockEq_symm hsrc))
    rcases ntpMonitor_cases h k p flags refuse with
      ⟨hnew, heq⟩ | ⟨-, mon, hmon, hsrc, heq⟩ | ⟨-, hnew, s1, mon, hget, heq⟩
    · rw [heq, if_neg (hother hnew)]
      exact ⟨m, hm, rfl, haddr⟩
    · rw [heq]
      by_cases hsame : m = mon
      · subst hsame
        rw [if_pos (sockEq_trans (sockEq_symm hsrc) haddr)]
        exact ⟨m, mem_cons_self, touchEntry_mem_self s k p flags m,
          sockEq_trans (MonEntry.again_sockEq _ k p flags) haddr⟩
      · have hnot : ¬p.recv_srcadr.sockEq addr = true := by
          intro hfrom
          apply hsame
          refine h.eq_of_sockEq hm hmon ?_
          exact sockEq_trans haddr
            (sockEq_symm (sockEq_trans hsrc hfrom))
        rw [if_neg hnot]
        exact ⟨m, mem_cons_of_mem _ ((mem_erase_of_ne hsame).mpr hm),
          touchEntry_mem_of_ne s k p flags hsame, haddr⟩
    · rw [heq] at hknown ⊢
      rw [if_neg (hother hnew)]
      obtain ⟨hinv, hshrinks, -⟩ := getEntry_inv h hev hget
      obtain ⟨x, hx, hxaddr⟩ := hknown
      -- The entry is not the one of the new source, so it was there before.
      rcases mem_cons.mp hx with rfl | hold
      · rw [insertEntry_mem_self] at hxaddr
        exact absurd hxaddr (hother hnew)
      · have hne : x ≠ mon :=
          fun hxm => hinv.held_not_mem (mem_singleton_self mon) (hxm ▸ hold)
        have hmem : (insertEntry s1 p flags mon).mem x = s.mem x :=
          (insertEntry_mem_of_ne s1 p flags hne).trans (hshrinks.mem x hold)
        rw [hmem] at hxaddr
        have hxm : x = m := h.eq_of_sockEq (hshrinks.mru.subset hold) hm
          (sockEq_trans hxaddr (sockEq_symm haddr))
        exact ⟨x, hx, hmem.trans (by rw [hxm]), haddr⟩

/-- What a packet of the source returns. The counter and the mask are given a
    name here and below, as comparing them unfolds the rate control. -/
theorem Tracked.mask (h : MonWf s) (ht : Tracked s addr e) {p : MonPacket}
    (hfrom : p.recv_srcadr.sockEq addr = true) (hr : e.control k p flags = r) (refuse : Bool) :
    (ntpMonitor s k p flags refuse).2 = r.2 := by
  have hnot : ¬Unknown s p.recv_srcadr := by
    obtain ⟨m, hm, rfl, haddr⟩ := ht
    exact fun hnew => hnew m hm (sockEq_trans haddr (sockEq_symm hfrom))
  rcases ntpMonitor_cases h k p flags refuse with
    ⟨hnew, -⟩ | ⟨-, mon, hmon, hsrc, heq⟩ | ⟨-, hnew, -⟩
  · exact absurd hnew hnot
  · rw [ht.unique h hmon (sockEq_trans hsrc hfrom), hr] at heq
    rw [heq]
  · exact absurd hnew hnot

theorem MonEntry.again_leak {p : MonPacket} (hr : e.control k p flags = r) :
    (e.again k p flags).leak = r.1 := by
  unfold MonEntry.again
  rw [hr]

/-! ### Runs -/

/-- The packets of the source in a run that starts in `s`, its packet before that having arrived at
    `last`: for each the interval since the one before and the mask that is returned. -/
def answers (addr : SockAddr) : LFp → MonSys → List MonEvent → List (Int × BitVec 16)
  | _, _, [] => []
  | last, s, .packet k p flags refuse :: es =>
    if p.recv_srcadr.sockEq addr then
      (interval p.recv_time last, (ntpMonitor s k p flags refuse).2) ::
        answers addr p.recv_time (monStep s (.packet k p flags refuse)) es
    else answers addr last (monStep s (.packet k p flags refuse)) es
  | last, s, e :: es => answers addr last (monStep s e) es

/-- There is an entry for the address in `s` and after every step. -/
def Lasts (addr : SockAddr) : MonSys → List MonEvent → Prop
  | s, [] => Known s addr
  | s, e :: es => Known s addr ∧ Lasts addr (monStep s e) es

instance decidableLasts (addr : SockAddr) :
    (s : MonSys) → (es : List MonEvent) → Decidable (Lasts addr s es)
  | s, [] => inferInstanceAs (Decidable (Known s addr))
  | s, e :: es =>
    have := decidableLasts addr (monStep s e) es
    inferInstanceAs (Decidable (Known s addr ∧ Lasts addr (monStep s e) es))

theorem Lasts.known {es : List MonEvent} (h : Lasts addr s es) : Known s addr := by
  cases es with
  | nil => exact h
  | cons e es => exact h.1

/-- A packet of the source comes with the two settings as in `k`, and flags
    that contain `RES_LIMITED` and `RES_KOD`. -/
def Limits (k : Knobs) (addr : SockAddr) : MonEvent → Prop
  | .packet k' p flags _ => p.recv_srcadr.sockEq addr = true →
    k'.ntp_minpkt = k.ntp_minpkt ∧ k'.ntp_minpoll = k.ntp_minpoll ∧
      isLimited flags = true ∧ isKod flags = true
  | _ => True

instance (k : Knobs) (addr : SockAddr) : (e : MonEvent) → Decidable (Limits k addr e)
  | .packet _ p _ _ => inferInstanceAs (Decidable (p.recv_srcadr.sockEq addr = true → _))
  | .start _ _ => inferInstanceAs (Decidable True)
  | .stop _ => inferInstanceAs (Decidable True)
  | .clearinterface _ => inferInstanceAs (Decidable True)

/-- What the source gets, as a run of the bucket. -/
def verdicts (xs : List (Int × BitVec 16)) : List (Int × LeakyBucket.Verdict) :=
  xs.map fun x => (x.1, verdict x.2)

theorem nonneg_cons {d : Int} {mask : BitVec 16} {xs : List (Int × BitVec 16)}
    (h : ∀ x ∈ (d, mask) :: xs, 0 ≤ x.1) : 0 ≤ d ∧ ∀ x ∈ xs, 0 ≤ x.1 :=
  forall_mem_cons.mp h

/-- What a source gets: a run of the bucket, and no mask with `RES_KOD` that is
    without `RES_LIMITED`. -/
structure Answered (k : Knobs) (leak : Int) (xs : List (Int × BitVec 16)) : Prop where
  runs : LeakyBucket.Runs (headwayBucket k) leak (verdicts xs)
  doused : ∀ x ∈ xs, isLimited x.2 = false → isKod x.2 = false

theorem Answered.cons {leak d : Int} {mask : BitVec 16} {xs : List (Int × BitVec 16)}
    (hmask : mask = r.2) (hstep : LeakyBucket.Step (headwayBucket k) leak (d, verdict r.2) r.1)
    (hdoused : isLimited r.2 = false → isKod r.2 = false) (hrest : Answered k r.1 xs) :
    Answered k leak ((d, mask) :: xs) := by
  rw [hmask]
  exact ⟨⟨r.1, hstep, hrest.runs⟩, forall_mem_cons.mpr ⟨hdoused, hrest.doused⟩⟩

theorem answers_answered (hlo : 3 ≤ k.ntp_minpoll) (hhi : k.ntp_minpoll ≤ 27) {es : List MonEvent}
    (hok : ∀ ev ∈ es, EventOk ev) (hlimits : ∀ ev ∈ es, Limits k addr ev) (h : MonWf s)
    (ht : Tracked s addr e) (hleak : 0 ≤ e.leak) (hpeak : e.leak ≤ 9 * 2 ^ k.ntp_minpoll)
    (hlasts : Lasts addr s es) (hd : ∀ x ∈ answers addr e.last s es, 0 ≤ x.1) :
    Answered k e.leak (answers addr e.last s es) := by
  induction es generalizing s e with
  | nil => exact ⟨trivial, by simp [answers]⟩
  | cons ev es ih =>
    have hokTail : ∀ ev' ∈ es, EventOk ev' := fun ev' h' => hok ev' (mem_cons_of_mem ev h')
    have hlimitsTail : ∀ ev' ∈ es, Limits k addr ev' :=
      fun ev' h' => hlimits ev' (mem_cons_of_mem ev h')
    have hev := hok ev mem_cons_self
    have hwf := monStep_wf s ev h hev
    have hstep := ht.step h hev hlasts.2.known
    cases ev with
    | start k' mode | stop mode | clearinterface lcladr =>
      exact ih hokTail hlimitsTail hwf hstep hleak hpeak hlasts.2 hd
    | packet k' p flags refuse =>
      simp only [afterEvent] at hstep
      simp only [answers] at hd ⊢
      by_cases hfrom : p.recv_srcadr.sockEq addr = true
      · rw [if_pos hfrom] at hstep
        simp only [if_pos hfrom] at hd ⊢
        obtain ⟨hminpkt, hminpoll, hlim, hkod⟩ := hlimits _ mem_cons_self hfrom
        obtain ⟨hhead, htail⟩ := nonneg_cons hd
        obtain ⟨r, hr⟩ : ∃ r, headway k (interval p.recv_time e.last) e.leak flags = r :=
          ⟨_, rfl⟩
        obtain ⟨hbucket, hnonneg, hle⟩ :=
          headway_step hlo hhi hhead (interval_lt _ _) hleak hpeak hlim hkod
        have hdoused := headway_mask k (interval p.recv_time e.last) e.leak hlim
        rw [hr] at hbucket hnonneg hle hdoused
        have hcontrol : e.control k' p flags = r := by
          unfold MonEntry.control
          rw [headway_congr hminpkt hminpoll, hr]
        refine Answered.cons (ht.mask h hfrom hcontrol refuse) hbucket hdoused ?_
        rw [← MonEntry.again_leak hcontrol] at hnonneg hle ⊢
        exact ih hokTail hlimitsTail hwf hstep hnonneg hle hlasts.2 htail
      · rw [if_neg hfrom] at hstep
        simp only [if_neg hfrom] at hd ⊢
        exact ih hokTail hlimitsTail hwf hstep hleak hpeak hlasts.2 hd

/-- The packet with which an entry for its source begins to exist. -/
theorem tracked_first (h : MonWf s) {p : MonPacket} {refuse : Bool} (hnew : Unknown s p.recv_srcadr)
    (hknown : Known (ntpMonitor s k p flags refuse).1 p.recv_srcadr) :
    Tracked (ntpMonitor s k p flags refuse).1 p.recv_srcadr (p.first flags) ∧
      (ntpMonitor s k p flags refuse).2 = doused flags := by
  rcases ntpMonitor_cases h k p flags refuse with
    ⟨-, heq⟩ | ⟨-, mon, hmon, hsrc, -⟩ | ⟨-, -, s1, mon, -, heq⟩
  · rw [heq] at hknown
    obtain ⟨m, hm, haddr⟩ := hknown
    exact absurd haddr (hnew m hm)
  · exact absurd hsrc (hnew mon hmon)
  · rw [heq]
    exact ⟨⟨mon, mem_cons_self, insertEntry_mem_self s1 p flags mon, sockEq_refl _⟩, rfl⟩

theorem headwayBucket_sound (hlo : 3 ≤ k.ntp_minpoll) (hhi : k.ntp_minpoll ≤ 27) :
    (headwayBucket k).Sound := by
  obtain ⟨hmin, -⟩ := headway_range hlo hhi
  refine ⟨?_, ?_⟩
  · simp only [headwayBucket]
    omega
  · simp only [headwayBucket]
    omega

theorem elapsed_verdicts (xs : List (Int × BitVec 16)) :
    LeakyBucket.elapsed (verdicts xs) = (xs.map Prod.fst).sum := by
  simp [LeakyBucket.elapsed, verdicts, Function.comp_def]

theorem passes_verdicts (xs : List (Int × BitVec 16)) :
    LeakyBucket.passes (verdicts xs) = (xs.map Prod.snd).countP fun mask => !isLimited mask := by
  unfold LeakyBucket.passes verdicts
  rw [countP_map, countP_map]
  apply countP_congr
  intro x _
  simp only [Function.comp_apply, verdict, decide_eq_true_eq, Bool.not_eq_true']
  split_ifs with hpass hkod <;> simp [hpass]

/-- The packets of one source while its entry exists, from the one with which it begins, with flags
    that contain `RES_LIMITED` and `RES_KOD`, the settings `minpkt` and `minpoll` fixed, and
    `minpoll` from 3 to 27: the number of those that pass, times the headway less two, is at most
    the time and nine times the headway; between two packets whose masks contain both flags there is
    more time than the headway; and a mask without `RES_LIMITED` is without `RES_KOD`. Before, in
    between and from others, anything may come. -/
theorem rate_control (k : Knobs) (hlo : 3 ≤ k.ntp_minpoll) (hhi : k.ntp_minpoll ≤ 27)
    (before es : List MonEvent) (k0 : Knobs) (p : MonPacket) (flags : BitVec 16) (refuse : Bool)
    (hok : ∀ e ∈ before ++ .packet k0 p flags refuse :: es, EventOk e)
    (hnew : Unknown (Run.exec monStep {} before) p.recv_srcadr) (hlasts : Lasts p.recv_srcadr
      (ntpMonitor (Run.exec monStep {} before) k0 p flags refuse).1 es)
    (hlimits : ∀ e ∈ es, Limits k p.recv_srcadr e) (hd : ∀ x ∈ answers p.recv_srcadr p.recv_time
      (ntpMonitor (Run.exec monStep {} before) k0 p flags refuse).1 es, 0 ≤ x.1) :
    let r := ntpMonitor (Run.exec monStep {} before) k0 p flags refuse
    let xs := answers p.recv_srcadr p.recv_time r.1 es
    let masks := r.2 :: xs.map Prod.snd
    ((masks.countP fun mask => !isLimited mask : Nat) : Int) * (2 ^ k.ntp_minpoll - 2) ≤
        (xs.map Prod.fst).sum + 9 * 2 ^ k.ntp_minpoll ∧
      (∀ ys x zs y ws, xs = ys ++ x :: (zs ++ y :: ws) →
        isLimited x.2 = true → isKod x.2 = true → isLimited y.2 = true → isKod y.2 = true →
        2 ^ k.ntp_minpoll < ((zs ++ [y]).map Prod.fst).sum) ∧
      ∀ mask ∈ masks, isLimited mask = false → isKod mask = false := by
  intro r xs masks
  have hwf : MonWf (Run.exec monStep {} before) :=
    (exec_observed before fun e he => hok e (mem_append_left _ he)).wf
  have hokHere : EventOk (.packet k0 p flags refuse) := hok _ (by simp)
  have hokTail : ∀ e ∈ es, EventOk e := fun e he => hok e (by simp [he])
  have hwf1 : MonWf r.1 := ntpMonitor_wf hwf hokHere p flags refuse
  obtain ⟨htracked, hmask⟩ := tracked_first hwf hnew hlasts.known
  obtain ⟨hmin, -⟩ := headway_range hlo hhi
  have hanswered : Answered k 0 xs :=
    answers_answered hlo hhi hokTail hlimits hwf1 htracked (le_refl 0)
      (by simp only [MonPacket.first]; omega) hlasts hd
  have hsound := headwayBucket_sound hlo hhi
  have hnonneg : ∀ x ∈ verdicts xs, 0 ≤ x.1 := by
    intro x hx
    obtain ⟨y, hy, rfl⟩ := mem_map.mp hx
    exact hd y hy
  refine ⟨?_, ?_, ?_⟩
  · -- The first packet is one more that passes.
    have hbound := LeakyBucket.passes_le hsound (by simp only [headwayBucket]; omega) hnonneg
      hanswered.runs
    rw [passes_verdicts, elapsed_verdicts] at hbound
    have hcount : masks.countP (fun mask => !isLimited mask) =
        (xs.map Prod.snd).countP (fun mask => !isLimited mask) + 1 := by
      refine countP_cons_of_pos ?_
      rw [hmask, isLimited_doused]
      rfl
    rw [hcount]
    push_cast
    simp only [headwayBucket] at hbound
    linarith
  · intro ys x zs y ws hxs hxlim hxkod hylim hykod
    have hruns := hanswered.runs
    rw [hxs] at hruns
    simp only [verdicts, map_append, map_cons] at hruns
    have hapart := LeakyBucket.notices_apart hsound hruns
      (by simp [verdict, hxlim, hxkod]) (by simp [verdict, hylim, hykod])
    have hsum : LeakyBucket.elapsed (verdicts (zs ++ [y])) = ((zs ++ [y]).map Prod.fst).sum :=
      elapsed_verdicts _
    simp only [verdicts, map_append, map_cons, map_nil] at hsum
    simp only [headwayBucket] at hapart
    simp only [map_append, map_cons, map_nil]
    linarith
  · intro mask hmem hpass
    rcases mem_cons.mp hmem with rfl | hold
    · rw [hmask]
      exact isKod_doused flags
    · obtain ⟨x, hx, rfl⟩ := mem_map.mp hold
      exact hanswered.doused x hx hpass

/-- A packet from one source after some seconds, with flags that limit it. -/
def limitedPacket (k : Knobs) (seconds : Nat) : MonEvent :=
  .packet k (packetFrom 1 (BitVec.ofNat 64 (seconds * 2 ^ 32)) 7) (RES_LIMITED ||| RES_KOD) false

/-- Packets without a pause, with no minimum headway. -/
def burstKnobs : Knobs := { ntp_minpkt := 1 }

def burst : List MonEvent := List.replicate 12 (limitedPacket burstKnobs 0)

/-- Ten more packets of the burst pass, the next gets a kiss-o'-death packet,
    and the one after that nothing. -/
theorem rate_control_burst :
    let s := Run.exec monStep {} [.start burstKnobs MON_ON]
    let p := packetFrom 1 0 7
    let r := ntpMonitor s burstKnobs p (RES_LIMITED ||| RES_KOD) false
    let xs := answers p.recv_srcadr p.recv_time r.1 burst
    (Lasts p.recv_srcadr r.1 burst ∧ (∀ e ∈ burst, Limits burstKnobs p.recv_srcadr e) ∧
      ∀ x ∈ xs, 0 ≤ x.1) ∧
    xs.map (fun x => verdict x.2) = List.replicate 10 .pass ++ [.notice, .drop] ∧
    (((r.2 :: xs.map Prod.snd).countP fun mask => !isLimited mask : Nat) : Int) * (2 ^ 3 - 2) ≤
      (xs.map Prod.fst).sum + 9 * 2 ^ 3 :=
  ⟨by decide, by decide,
    (rate_control burstKnobs (by decide) (by decide) [.start burstKnobs MON_ON] burst burstKnobs
      (packetFrom 1 0 7) (RES_LIMITED ||| RES_KOD) false (by decide) (by decide)
      (by decide) (by decide) (by decide)).1⟩

/-- With a `minpoll` of 31 the headway overflows, and every packet passes that
    keeps the minimum headway: ten packets in nine seconds, where the bound is
    nine for any time less than two to the power of 31. -/
theorem rate_control_overflow :
    let k : Knobs := { ntp_minpoll := 31 }
    let s := Run.exec monStep {} [.start k MON_ON]
    let p := packetFrom 1 0 7
    let r := ntpMonitor s k p (RES_LIMITED ||| RES_KOD) false
    let es := [1, 2, 3, 4, 5, 6, 7, 8, 9].map (limitedPacket k)
    let xs := answers p.recv_srcadr p.recv_time r.1 es
    Lasts p.recv_srcadr r.1 es ∧ (∀ x ∈ xs, x.1 = 1) ∧
    (r.2 :: xs.map Prod.snd).countP (fun mask => !isLimited mask) = 10 ∧
    ¬((10 : Int) * (2 ^ 31 - 2) ≤ (xs.map Prod.fst).sum + 9 * 2 ^ 31) := by
  decide

end NtpSuite.Mon
