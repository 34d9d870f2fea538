import NtpSuite.Lib.Run
import NtpSuite.Core.Sntp

/-!
# The Replies the SNTP Client Acts On

The client checks that a datagram comes from an address on its list, and that
its origin timestamp is the transmit timestamp of the packet saved there. What
it acts on would then be the answer to a request. Two things are in the way.

A structure is on the list before its request is sent, and the packet saved in
it is zero until then. A datagram with a zero origin timestamp passes the test
there. And a kiss code is taken from the packet before the test is made: a
kiss that denies service goes into the database whatever its origin timestamp.

`EventOk` says that a datagram uses neither way. Over every run of such
datagrams, with all else left open, everything the client acts on answers a
request. The invariant is that a saved packet is in the trace as sent, or is
still zero.

## Main definitions

* `Call.reply`: The datagram a call acts on.
* `Answers`: The datagram answers a request in the trace.
* `Saved`: The saved packet was sent, or is zero.
* `EventOk`: The condition on a datagram.

## Theorems

* `processPkt_useable`, `processPkt_demobilize`: The verdicts that are acted
  on.
* `step_sound`: The invariant, over one callback.
* `answers_own_requests`: Over every run that meets the condition, the client
  acts only on answers.
-/

namespace NtpSuite.Sntp

open Function List Option

section Trace

variable {α : Type}

/-- The sender and origin timestamp of the datagram a call acts on: one that
    derives an offset, or one that records a kiss. -/
def Call.reply : Call α → Option (SockAddr × LFp)
  | .offset sender org _ => some (sender, org)
  | .addEntry sender org _ => some (sender, org)
  | _ => none

/-- A request to the address was sent, with this transmit timestamp. -/
def Answers (trace : List (Call α)) (sender : SockAddr) (org : LFp) : Prop :=
  ∃ dest, Call.sendpkt dest org ∈ trace ∧ sender.sockEq dest = true

/-- Every datagram acted on answers a request sent before. -/
def Justified (trace : List (Call α)) : Prop :=
  ∀ x pre, (x :: pre) <:+ trace → ∀ r, x.reply = some r → Answers pre r.1 r.2

theorem Justified.cons {trace : List (Call α)} (h : Justified trace) (x : Call α)
    (hx : ∀ r, x.reply = some r → Answers trace r.1 r.2) : Justified (x :: trace) := by
  intro y pre hsuf
  -- A call is the new one, or its past is unchanged.
  rcases suffix_cons_iff.mp hsuf with heq | hsuf
  · obtain ⟨rfl, rfl⟩ := List.cons.inj heq
    exact hx
  · exact h y pre hsuf

/-- The request of the structure was sent, or the saved packet is still zero. -/
def Saved (trace : List (Call α)) (k : SentPkt) : Prop :=
  Call.sendpkt k.addr k.x_pkt.xmt ∈ trace ∨ (k.stime = 0 ∧ k.x_pkt.xmt = 0)

/-- The invariant of the client. -/
structure Sound (s : State α) : Prop where
  justified : Justified s.trace
  saved : ∀ ptr, Saved s.trace (s.spkt ptr)

/-- Writing to a structure something that leaves the request alone. -/
theorem Sound.modify {s : State α} (hs : Sound s) (ptr : Nat) {f : SentPkt → SentPkt}
    (hf : ∀ k, Saved s.trace k → Saved s.trace (f k)) : Sound (s.modify ptr f) := by
  refine ⟨hs.justified, fun q => ?_⟩
  by_cases hq : q = ptr
  · subst hq
    simp only [State.modify, update_self]
    exact hf _ (hs.saved q)
  · simp only [State.modify, update_of_ne hq]
    exact hs.saved q

/-- A step that records nothing and writes to no structure. -/
theorem Sound.of_same {s t : State α} (hs : Sound s) (htrace : t.trace = s.trace)
    (hspkt : t.spkt = s.spkt) : Sound t := by
  refine ⟨?_, fun ptr => ?_⟩
  · rw [htrace]
    exact hs.justified
  · rw [htrace, hspkt]
    exact hs.saved ptr

/-- Recording a call other than one that acts on a datagram without a request. -/
theorem Sound.log {s : State α} (hs : Sound s) (x : Call α)
    (hx : ∀ r, x.reply = some r → Answers s.trace r.1 r.2) : Sound (s.log x) := by
  refine ⟨hs.justified.cons x hx, fun ptr => ?_⟩
  exact (hs.saved ptr).imp (mem_cons_of_mem x) id

end Trace

section Asking

variable {α : Type}

variable (o : Opts α) {s : State α} (e : Env)

theorem checkExitConditions_same (s : State α) :
    (checkExitConditions o s).trace = s.trace ∧ (checkExitConditions o s).spkt = s.spkt := by
  rw [checkExitConditions]
  split
  · exact ⟨rfl, rfl⟩
  · exact ⟨rfl, rfl⟩

theorem checkExitConditions_sound (hs : Sound s) : Sound (checkExitConditions o s) :=
  hs.of_same (checkExitConditions_same o s).1 (checkExitConditions_same o s).2

theorem decPendingNtp_same (s : State α) :
    (decPendingNtp o s).trace = s.trace ∧ (decPendingNtp o s).spkt = s.spkt := by
  rw [decPendingNtp]
  split
  · exact checkExitConditions_same o _
  · exact ⟨rfl, rfl⟩

theorem decPendingNtp_sound (hs : Sound s) : Sound (decPendingNtp o s) :=
  hs.of_same (decPendingNtp_same o s).1 (decPendingNtp_same o s).2

theorem queueXmt_sound (dctx : DnsCtx) (ai : SockAddr) (xmt_delay : Nat) (hs : Sound s) :
    Sound (queueXmt o e s { dctx := dctx, addr := ai } xmt_delay) := by
  simp only [queueXmt]
  split
  · exact decPendingNtp_sound o hs
  · refine ⟨hs.justified, fun ptr => ?_⟩
    -- The other structures are as they were.
    by_cases hptr : ptr = s.alloc
    · subst hptr
      simp only [update_self]
      exact .inr ⟨rfl, rfl⟩
    · simp only [update_of_ne hptr]
      exact hs.saved ptr

theorem resolveAddr_sound (dctx : DnsCtx) {r : State α × Nat × Nat} (ai : SockAddr)
    (hr : Sound r.1) : Sound (resolveAddr o e dctx r ai).1 := by
  have hask : ∀ delay, Sound (askAddr o e dctx r.1 ai delay) := by
    intro delay
    have hs : Sound { r.1 with n_pending_ntp := r.1.n_pending_ntp + 1 } := hr.of_same rfl rfl
    simp only [askAddr]
    split
    · exact queueXmt_sound o e dctx ai delay hs
    · exact hs
  rw [resolveAddr]
  split
  · exact hr
  split
  · exact hr
  split
  · exact hask _
  · split
    · exact hask _
    · exact hr
  · exact hr.of_same rfl rfl

theorem sntpNameResolved_sound (dctx : DnsCtx) (addrs : List SockAddr) (hs : Sound s) :
    Sound (sntpNameResolved o e s dctx addrs) := by
  have hend : Sound (addrs.foldl (resolveAddr o e dctx) (s, 0, 0)).1 :=
    List.foldlRecOn (motive := fun r : State α × Nat × Nat => Sound r.1) addrs _ hs
      (fun r hr ai _ => resolveAddr_sound o e dctx ai hr)
  simp only [sntpNameResolved]
  split
  · exact hend
  · exact checkExitConditions_sound o (hend.of_same rfl rfl)

/-- A packet that is sent is saved, and recorded with its address. -/
theorem xmt_sound (ptr : Nat) (hs : Sound s) : Sound (xmt o e s ptr) := by
  simp only [xmt]
  split
  · refine ⟨hs.justified.cons _ nofun, fun q => ?_⟩
    by_cases hq : q = ptr
    · subst hq
      simp only [State.log, State.modify, update_self]
      exact .inl mem_cons_self
    · simp only [State.log, State.modify, update_of_ne hq]
      exact (hs.saved q).imp (mem_cons_of_mem _) id
  · exact decPendingNtp_sound o hs

theorem xmtTimerCb_sound (hs : Sound s) : Sound (xmtTimerCb o e s) := by
  rw [xmtTimerCb]
  split
  · exact hs
  split
  · exact hs
  · split
    · exact xmt_sound o e _ (hs.of_same rfl rfl)
    · exact hs

end Asking

section Answers

variable {α : Type}

theorem kissVerdict_ne_useable {pkt : Pkt} {v : PktVerdict} (h : kissVerdict pkt = some v)
    (n : Nat) : v ≠ .useable n := by
  rw [kissVerdict] at h
  split_ifs at h
  all_goals
    obtain rfl := some.inj h
    simp

variable (o : Opts α) (e : Env) {s : State α}

/-- The ends of `process_pkt` for a reply: one of three failures, the verdict
    of a kiss, or past the test of the origin timestamp. -/
theorem processPkt_cases (d : Datagram) (spkt : Pkt) :
    processPkt o e d .server spkt
        ∈ [PktVerdict.serverUnuseable, .packetUnuseable, .serverAuthFail]
      ∨ kissVerdict d.pkt = some (processPkt o e d .server spkt)
      ∨ (processPkt o e d .server spkt = .useable d.pkt_len ∧ d.pkt.org = spkt.xmt) := by
  rw [processPkt]
  split
  · exact .inl (by simp)
  · exact .inl (by simp)
  by_cases hversion : d.pkt.version < NTP_OLDVERSION ∨ d.pkt.version > NTP_VERSION
  · rw [if_pos hversion]
    exact .inl (by simp)
  rw [if_neg hversion]
  by_cases hmode : d.pkt.mode ≠ .server ∧ d.pkt.mode ≠ .passive
  · rw [if_pos hmode]
    exact .inl (by simp)
  rw [if_neg hmode]
  -- A kiss is decided before the origin timestamp is compared.
  rcases hkiss : kissVerdict d.pkt with _ | v
  · by_cases hsync : d.pkt.leap = .notinsync
    · simp only [if_pos hsync]
      exact .inl (by simp)
    simp only [if_neg hsync]
    by_cases horg : d.pkt.org ≠ spkt.xmt
    · rw [if_pos horg]
      exact .inl (by simp)
    · rw [if_neg horg]
      exact .inr (.inr ⟨rfl, not_not.mp horg⟩)
  · exact .inr (.inl rfl)

theorem processPkt_useable {o : Opts α} {e : Env} {d : Datagram} {spkt : Pkt} {n : Nat}
    (h : processPkt o e d .server spkt = .useable n) : d.pkt.org = spkt.xmt := by
  rcases processPkt_cases o e d spkt with hfail | hkiss | ⟨-, horg⟩
  · exact absurd (h ▸ hfail) (by simp)
  · exact absurd h (kissVerdict_ne_useable hkiss n)
  · exact horg

theorem processPkt_demobilize {o : Opts α} {e : Env} {d : Datagram} {spkt : Pkt}
    (h : processPkt o e d .server spkt = .kodDemobilize) :
    kissVerdict d.pkt = some .kodDemobilize := by
  rcases processPkt_cases o e d spkt with hfail | hkiss | ⟨huse, -⟩
  · exact absurd (h ▸ hfail) (by simp)
  · exact h ▸ hkiss
  · exact absurd (h.symm.trans huse) (by simp)

/-- The condition on a datagram, given the structure it is for: if it denies
    service, its origin timestamp is that of the saved packet, and if that
    timestamp is zero, the packet has been sent. -/
def DatagramOk (s : State α) (d : Datagram) : Prop :=
  ∀ ptr, findSpkt s d = some ptr →
    (kissVerdict d.pkt = some .kodDemobilize → d.pkt.org = (s.spkt ptr).x_pkt.xmt)
      ∧ (d.pkt.org = 0 → (s.spkt ptr).stime ≠ 0)

theorem markDone_sound (ptr : Nat) (hs : Sound s) : Sound (markDone o s ptr) := by
  rw [markDone]
  split
  · exact (decPendingNtp_sound o hs).modify ptr (fun k hk => hk)
  · exact hs

/-- A datagram that passes the test of its origin timestamp, or would, answers a request. -/
theorem answers_of_saved (hs : Sound s) {d : Datagram} {ptr : Nat} (hfind : findSpkt s d = some ptr)
    (horg : d.pkt.org = (s.spkt ptr).x_pkt.xmt) (hzero : d.pkt.org = 0 → (s.spkt ptr).stime ≠ 0) :
    Answers s.trace d.sender d.pkt.org := by
  have hsender : d.sender.sockEq (s.spkt ptr).addr = true := by
    simpa using List.find?_some hfind
  -- Sent, or still zero; a zero origin would need it sent.
  rcases hs.saved ptr with hsent | ⟨hstime, hxmt⟩
  · exact ⟨(s.spkt ptr).addr, by rw [horg]; exact hsent, hsender⟩
  · exact absurd hstime (hzero (horg.trans hxmt))

theorem timeoutQueries_sound (hs : Sound s) : Sound (timeoutQueries o e s) := by
  have hturn : ∀ (t : State α) ptr, Sound t → Sound (timeoutTurn o e t ptr) := by
    intro t ptr ht
    rw [timeoutTurn]
    split
    · exact ht
    split
    · exact decPendingNtp_sound o (ht.modify ptr (fun k hk => hk))
    · exact ht
  have hend := List.foldlRecOn (s.v4_pkts_list ++ s.v6_pkts_list) (timeoutTurn o e) hs
    (fun t ht ptr _ => hturn t ptr ht)
  simp only [timeoutQueries]
  split
  · exact hend.of_same rfl rfl
  · exact hend

variable [Field α] [LinearOrder α]

theorem setTime_sound (offset : α) (hs : Sound s) : Sound (setTime o e s offset) := by
  have hlog : Sound (s.log (.setTime offset)) :=
    hs.log _ nofun
  rw [setTime]
  split
  · exact hs
  split
  · exact hlog.of_same rfl rfl
  split
  · exact hlog.of_same rfl rfl
  · exact hs

/-- `handle_pkt` keeps the invariant if what it acts on answers a request. -/
theorem handlePkt_sound (rpktl : PktVerdict) (d : Datagram) (host : SockAddr) (hs : Sound s)
    (hact : rpktl = .kodDemobilize ∨ (∃ n, rpktl = .useable n) →
      Answers s.trace d.sender d.pkt.org) : Sound (handlePkt o e s rpktl d host) := by
  have hlog : ∀ x : Call α, (∀ r, x.reply = some r → r = (d.sender, d.pkt.org)) →
      Answers s.trace d.sender d.pkt.org → Sound (s.log x) := by
    intro x hx hans
    refine hs.log x (fun r hr => ?_)
    rw [hx r hr]
    exact hans
  cases rpktl with
  | kodDemobilize =>
    refine (hlog _ ?_ (hact (.inl rfl))).of_same rfl rfl
    exact fun r hr => (some.inj hr).symm
  | useable n =>
    have hoff := hlog (.offset d.sender d.pkt.org (offsetCalculation d.pkt (arrival o e)))
      (fun r hr => (some.inj hr).symm) (hact (.inr ⟨n, rfl⟩))
    simp only [handlePkt]
    split
    · exact hoff.of_same rfl rfl
    split
    · exact setTime_sound o e _ (hoff.of_same rfl rfl)
    · exact hoff.of_same rfl rfl
  | _ => exact hs

theorem sockCb_sound (d : Datagram) (hs : Sound s) (hok : DatagramOk s d) :
    Sound (sockCb o e s d) := by
  rw [sockCb]
  rcases hfind : findSpkt s d with _ | ptr
  · exact hs
  obtain ⟨hkiss, hzero⟩ := hok ptr hfind
  have hmark : (markDone o s ptr).trace = s.trace := by
    rw [markDone]
    split
    · exact (decPendingNtp_same o s).1
    · rfl
  refine checkExitConditions_sound o (handlePkt_sound o e _ d _ (markDone_sound o ptr hs) ?_)
  intro hact
  rw [hmark]
  -- The two verdicts that are acted on give the origin in their own way.
  refine answers_of_saved hs hfind ?_ hzero
  rcases hact with hden | ⟨n, huse⟩
  · exact hkiss (processPkt_demobilize hden)
  · exact processPkt_useable huse

/-- The condition on a callback. Only datagrams have one. -/
def EventOk (s : State α) (x : Env × Event) : Prop :=
  match x.2 with
  | .datagram d => DatagramOk s d
  | _ => True

theorem step_sound (s : State α) (x : Env × Event) (hs : Sound s) (hok : EventOk s x) :
    Sound (step o s x) := by
  rw [step]
  split
  · exact hs
  obtain ⟨e, x⟩ := x
  cases x with
  | resolved dctx addrs => exact sntpNameResolved_sound o e dctx addrs hs
  | xmtTimer => exact xmtTimerCb_sound o e hs
  | datagram d => exact sockCb_sound o e d hs hok
  | timeout => exact timeoutQueries_sound o e hs

omit [Field α] [LinearOrder α] in
theorem start_sound (names : Nat) (start_tv : Int) (kod_db : List KodEntry) :
    Sound (start names start_tv kod_db : State α) := by
  refine ⟨?_, fun ptr => .inr ⟨rfl, rfl⟩⟩
  intro x pre hsuf
  exact absurd (suffix_nil.mp hsuf) (by simp)

/-- The client acts only on answers to its own requests. Along every run whose datagrams meet the
    condition, a datagram from which an offset is derived, or whose kiss is recorded, comes from an
    address to which a request was sent before, and has the transmit timestamp of that request as
    its origin timestamp. -/
theorem answers_own_requests (o : Opts α) (names : Nat) (start_tv : Int)
    (kod_db : List KodEntry) (xs : List (Env × Event))
    (hrun : Run.Meets (step o) EventOk (start names start_tv kod_db) xs) :
    ∀ x pre, (x :: pre) <:+ (Run.exec (step o) (start names start_tv kod_db) xs).trace →
      ∀ sender org, x.reply = some (sender, org) →
        ∃ dest, Call.sendpkt dest org ∈ pre ∧ sender.sockEq dest = true := by
  intro x pre hsuf sender org hreply
  have hsound := Run.exec_invariant (step_sound o) _ xs (start_sound names start_tv kod_db) hrun
  exact hsound.justified x pre hsuf (sender, org) hreply

end Answers

/-- A client that may step the clock. -/
def stepOpts : Opts ℚ where
  authentication := false
  wait := false
  step := true
  slew := false
  steplimit := 0
  response_timeout := 5
  ntpver := 4
  ipv6_works := true
  pretend_time := none
  stoa := fun a => [BitVec.ofNat 8 a.addr]

/-- No keys, and everything else works. -/
def plainEnv : Env where
  start_cb := ⟨1000, 0⟩
  tv_xmt := ⟨1000, 0⟩
  time := 1000
  sent := true
  get_key := fun _ => false
  auth_md5 := fun _ _ _ => false
  systime := true

/-- A name with two addresses. The second is to be asked two seconds after the first. -/
def twoServers : Event :=
  .resolved { name := [], ucst := true } [{ addr := 1 }, { addr := 2 }]

/-- A synchronized server's packet with a given origin timestamp. -/
def timePacket (addr : Nat) (org : LFp) : Datagram :=
  { sender := { addr := addr }, pkt_len := 48, exten := []
    pkt := { li_vn_mode := 0x24, stratum := 2, org := org } }

/-- A kiss that denies service, with a given origin timestamp. -/
def denyPacket (addr : Nat) (org : LFp) : Datagram :=
  { sender := { addr := addr }, pkt_len := 48, exten := []
    pkt := { li_vn_mode := 0xe4, refid := KISS_DENY, org := org } }

/-- The transmit timestamp of a request. -/
def requestStamp : LFp := tvToTs ⟨1000 + JAN_1970, 0⟩

/-- The kiss of the first server, with a given origin timestamp, once it was asked. -/
def deniedRun (org : LFp) : List (Env × Event) :=
  [(plainEnv, twoServers), (plainEnv, .xmtTimer), (plainEnv, .datagram (denyPacket 1 org))]

/-- A kiss that answers the request is recorded, and rightly so. -/
theorem answers_own_requests_denied :
    (Run.exec (step stepOpts) (start 1 1000 []) (deniedRun requestStamp)).trace
        = [.addEntry { addr := 1 } requestStamp KISS_DENY, .sendpkt { addr := 1 } requestStamp]
      ∧ ∀ x pre,
        (x :: pre) <:+ (Run.exec (step stepOpts) (start 1 1000 []) (deniedRun requestStamp)).trace →
        ∀ sender org, x.reply = some (sender, org) →
          ∃ dest, Call.sendpkt dest org ∈ pre ∧ sender.sockEq dest = true := by
  refine ⟨by decide, ?_⟩
  refine answers_own_requests stepOpts 1 1000 [] (deniedRun requestStamp)
    ⟨trivial, trivial, ?_, trivial⟩
  intro ptr hptr
  have hfind : findSpkt (step stepOpts (step stepOpts (start 1 1000 []) (plainEnv, twoServers))
      (plainEnv, .xmtTimer)) (denyPacket 1 requestStamp) = some 0 := by decide
  obtain rfl := some.inj (hfind.symm.trans hptr)
  exact ⟨fun _ => by decide, fun hzero => absurd hzero (by decide)⟩

/-- A packet in the name of the second server, before it was asked. -/
def earlyRun : List (Env × Event) :=
  [(plainEnv, twoServers), (plainEnv, .datagram (timePacket 2 0))]

/-- Both forgeries are acted on: the first steps the clock, and the second puts
    the server into the database. -/
theorem forgedReplies_acted_on :
    ¬ (∀ x pre, (x :: pre) <:+ (Run.exec (step stepOpts) (start 1 1000 []) earlyRun).trace →
        ∀ sender org, x.reply = some (sender, org) →
          ∃ dest, Call.sendpkt dest org ∈ pre ∧ sender.sockEq dest = true)
      ∧ ¬ (∀ x pre,
        (x :: pre) <:+ (Run.exec (step stepOpts) (start 1 1000 []) (deniedRun 0x999)).trace →
        ∀ sender org, x.reply = some (sender, org) →
          ∃ dest, Call.sendpkt dest org ∈ pre ∧ sender.sockEq dest = true) := by
  constructor
  · intro hall
    obtain ⟨dest, hmem, -⟩ := hall _ _ (suffix_cons _ _) _ _ rfl
    exact absurd hmem not_mem_nil
  · intro hall
    obtain ⟨dest, hmem, -⟩ := hall _ _ (suffix_refl _) _ _ rfl
    obtain ⟨-, heq⟩ := Call.sendpkt.inj (mem_singleton.mp hmem)
    exact absurd heq (by decide)

end NtpSuite.Sntp
