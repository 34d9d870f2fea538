import NtpSuite.Core.CertCache
import NtpSuite.Lib.Run

/-!
# References into the Certificate Cache

When the certificate an association refers to is still on the list. No two
certificates of the list have the same names, whatever happens, so a response
replaces at most one. That one is freed, and no association is asked: one that
refers to it is left with an address where nothing is, be it another one or the
one that the response belongs to. The latter gets the new certificate, but
`cert_hike` looks at the old one first, unless the new one is signed by itself
and not trusted.

## Main definitions

* `Cached`: What is always known of the list.
* `Installed`: What `cert_install` can do.
* `Sound`: Every reference is to a certificate of the list.
* `Replaces`, `CertOk`: The condition on what happens.

## Theorems

* `certInstall_installed`: What `cert_install` can do.
* `certHike_spec`: What `cert_hike` does.
* `references_sound_iff`: When all references are good.
-/

namespace NtpSuite.Certs

open Exten Function List Option

section Cache

variable {s s' : CertSys} {cp : CertNode} {y : Nat}

/-- The subject and the issuer of the certificate at an address. -/
def names (node : Nat → Option CertNode) (a : Nat) : Option (CStr × CStr) :=
  (node a).map fun c => (c.subject, c.issuer)

/-- What is always known of the list: it has the certificates there are, and no two
    of the same names. -/
structure Cached (s : CertSys) : Prop where
  live : ∀ a, (s.node a).isSome = true ↔ a ∈ s.cinfo
  past : ∀ a ∈ s.cinfo, a < s.next
  unique : (s.cinfo.map (names s.node)).Nodup

theorem Cached.node_next (hs : Cached s) : s.node s.next = none := by
  by_contra hne
  have hmem := (hs.live s.next).mp (isSome_iff_ne_none.mpr hne)
  exact lt_irrefl _ (hs.past _ hmem)

variable {a : Nat} (lib : X509)

theorem Cached.exists_node (hs : Cached s) (ha : a ∈ s.cinfo) : ∃ xp, s.node a = some xp :=
  isSome_iff_exists.mp ((hs.live a).mpr ha)

theorem Cached.eq_of_sameNames (hs : Cached s) {a b : Nat} {xp zp : CertNode}
    (ha : a ∈ s.cinfo) (hb : b ∈ s.cinfo) (hxp : s.node a = some xp) (hzp : s.node b = some zp)
    (hx : sameNames cp xp) (hz : sameNames cp zp) : a = b := by
  refine inj_on_of_nodup_map hs.unique ha hb ?_
  simp [names, hxp, hzp, ← hx.1, ← hx.2, hz.1, hz.2]

/-! ### `cert_install` -/

theorem scan_eq_some {node : Nat → Option CertNode} {l rest : List Nat} {xp : CertNode}
    (h : scan node cp l = some (a, xp, rest)) :
    node a = some xp ∧ sameNames cp xp ∧
      ∃ pre suf, l = pre ++ a :: suf ∧ rest = pre ++ suf := by
  induction l generalizing rest with
  | nil => cases h
  | cons b link ih =>
    unfold scan at h
    cases hb : node b with
    | none => simp [hb] at h
    | some zp =>
      simp only [hb] at h
      split_ifs at h with hnames
      · cases h
        exact ⟨hb, hnames, [], link, rfl, rfl⟩
      · obtain ⟨⟨a', xp', rest'⟩, hscan, heq⟩ := map_eq_some_iff.mp h
        cases heq
        obtain ⟨hnode, hsame, pre, suf, rfl, rfl⟩ := ih hscan
        exact ⟨hnode, hsame, b :: pre, suf, rfl, rfl⟩

theorem scan_eq_none {node : Nat → Option CertNode} {l : List Nat}
    (hlive : ∀ a ∈ l, (node a).isSome = true) (h : scan node cp l = none) :
    ∀ a ∈ l, ∀ xp, node a = some xp → ¬ sameNames cp xp := by
  induction l with
  | nil => simp
  | cons b link ih =>
    obtain ⟨zp, hb⟩ := isSome_iff_exists.mp (hlive b mem_cons_self)
    simp only [scan, hb] at h
    split_ifs at h with hnames
    have htail := ih (fun a ha => hlive a (mem_cons_of_mem b ha))
      (map_eq_none_iff.mp h)
    intro a ha xp hxp
    rcases mem_cons.mp ha with rfl | hlink
    · rw [hb] at hxp
      cases hxp
      exact hnames
    · exact htail a hlink xp hxp

/-- What `cert_install` can do with a certificate: it keeps the one with the same
    names, puts this one in its place, or puts this one on the list. -/
inductive Installed (s : CertSys) (cp : CertNode) : Nat → CertSys → Prop
  | kept {a : Nat} {xp : CertNode} (hmem : a ∈ s.cinfo) (hnode : s.node a = some xp)
      (hnames : sameNames cp xp) (hold : cp.cert.fstamp ≤ xp.cert.fstamp) :
      Installed s cp a
        { s with
          node := update s.node a (some { xp with valid := true })
          next := s.next + 1 }
  | replaced {a : Nat} {xp : CertNode} {pre suf : List Nat} (hlist : s.cinfo = pre ++ a :: suf)
      (hnode : s.node a = some xp) (hnames : sameNames cp xp)
      (hnew : ¬ cp.cert.fstamp ≤ xp.cert.fstamp) :
      Installed s cp s.next
        { s with
          node := update (update s.node a none) s.next
            (some { cp with valid := true })
          next := s.next + 1
          cinfo := s.next :: (pre ++ suf) }
  | fresh (hnone : ∀ a ∈ s.cinfo, ∀ xp, s.node a = some xp → ¬ sameNames cp xp) :
      Installed s cp s.next
        { s with
          node := update s.node s.next (some { cp with valid := true })
          next := s.next + 1
          cinfo := s.next :: s.cinfo }

theorem certInstall_installed (hs : Cached s) (cp : CertNode) :
    ∃ y s', certInstall (some cp) s = (some y, s') ∧ Installed s cp y s' := by
  unfold certInstall
  simp only
  cases hscan : scan s.node cp s.cinfo with
  | none =>
    have hnone := scan_eq_none (fun a ha => (hs.live a).mpr ha) hscan
    refine ⟨_, _, rfl, ?_⟩
    simp only [CertSys.light, CertSys.alloc, update_self, map_some, update_idem]
    exact .fresh hnone
  | some r =>
    obtain ⟨a, xp, rest⟩ := r
    obtain ⟨hnode, hnames, pre, suf, hlist, rfl⟩ := scan_eq_some hscan
    have hmem : a ∈ s.cinfo := by simp [hlist]
    have hne : a ≠ s.next := (hs.past a hmem).ne
    simp only
    split_ifs with hold
    · refine ⟨_, _, rfl, ?_⟩
      -- the new certificate is gone again, and its address is as before
      have hgone : update s.node s.next none = s.node := by
        rw [← hs.node_next]
        exact update_eq_self _ _
      simp only [CertSys.light, CertSys.certFree, CertSys.alloc, update_idem, hgone,
        hnode, map_some]
      exact .kept hmem hnode hnames hold
    · refine ⟨_, _, rfl, ?_⟩
      simp only [CertSys.light, CertSys.certFree, CertSys.alloc, update_of_ne hne.symm,
        update_self, map_some]
      rw [update_comm hne.symm, update_idem]
      exact .replaced hlist hnode hnames hold

/-- What is known of the list depends on where there are certificates and on their names. -/
theorem Cached.of_names (hs : Cached s) (hlist : s'.cinfo = s.cinfo)
    (hnames : ∀ a, names s'.node a = names s.node a) (hnext : s.next ≤ s'.next) : Cached s' := by
  have hsome : ∀ a, (s'.node a).isSome = (s.node a).isSome := by
    intro a
    have hmap := congrArg Option.isSome (hnames a)
    simpa only [names, isSome_map] using hmap
  refine ⟨fun a => ?_, fun a ha => ?_, ?_⟩
  · rw [hsome, hlist]
    exact hs.live a
  · rw [hlist] at ha
    exact (hs.past a ha).trans_le hnext
  · rw [hlist, map_congr_left fun a _ => hnames a]
    exact hs.unique

/-- A new certificate, whose names no other has, is put first on the list. -/
theorem Cached.cons (hs : Cached s) (cp : CertNode)
    (hnew : ∀ a ∈ s.cinfo, names s.node a ≠ some (cp.subject, cp.issuer)) :
    Cached
      { s with
        node := update s.node s.next (some cp)
        next := s.next + 1
        cinfo := s.next :: s.cinfo } := by
  refine ⟨fun a => ?_, fun a ha => ?_, ?_⟩
  · by_cases hnext : a = s.next
    · simp [hnext]
    · simp [hnext, hs.live a]
  · rcases mem_cons.mp ha with rfl | hold
    · exact Nat.lt_succ_self _
    · exact (hs.past a hold).trans (Nat.lt_succ_self _)
  · have htail : s.cinfo.map (names (update s.node s.next (some cp))) =
        s.cinfo.map (names s.node) :=
      map_congr_left fun a ha => by
        simp [names, update_of_ne (hs.past a ha).ne]
    rw [map_cons, htail]
    refine nodup_cons.mpr ⟨?_, hs.unique⟩
    simp only [names, update_self, map_some]
    intro hmem
    obtain ⟨a, ha, heq⟩ := mem_map.mp hmem
    exact hnew a ha heq

theorem Cached.not_mem (hs : Cached s) {pre suf : List Nat} (hlist : s.cinfo = pre ++ a :: suf) :
    a ∉ pre ++ suf := by
  have hnodup : s.cinfo.Nodup := hs.unique.of_map _
  rw [hlist] at hnodup
  exact (nodup_middle.mp hnodup).notMem

theorem Cached.erase (hs : Cached s) {pre suf : List Nat} (hlist : s.cinfo = pre ++ a :: suf) :
    Cached { s with node := update s.node a none, cinfo := pre ++ suf } := by
  have hsub : (pre ++ suf).Sublist s.cinfo := by
    rw [hlist]
    exact List.Sublist.append_left (sublist_cons_self a suf) pre
  have hnot := hs.not_mem hlist
  refine ⟨fun b => ?_, fun b hb => hs.past b (hsub.subset hb), ?_⟩
  · by_cases hba : b = a
    · subst hba
      simpa using hnot
    · have hlive := hs.live b
      rw [hlist] at hlive
      simpa [hba] using hlive
  · have htail : (pre ++ suf).map (names (update s.node a none)) =
        (pre ++ suf).map (names s.node) :=
      map_congr_left fun b hb => by
        have hba : b ≠ a := fun h => hnot (h ▸ hb)
        simp [names, update_of_ne hba]
    rw [htail]
    exact hs.unique.sublist (hsub.map _)

theorem names_of_sameNames {xp : CertNode} (hnode : s.node a = some xp) :
    names s.node a = some (cp.subject, cp.issuer) ↔ sameNames cp xp := by
  simp only [names, hnode, map_some, some.injEq, Prod.mk.injEq, sameNames]
  exact and_congr eq_comm eq_comm

section

variable (h : Installed s cp y s')

include h

theorem Installed.cached (hs : Cached s) : Cached s' := by
  cases h with
  | kept hmem hnode hnames hold =>
    refine hs.of_names rfl (fun b => ?_) (Nat.le_succ _)
    by_cases hb : b = y
    · subst hb
      simp [names, hnode]
    · simp [names, update_of_ne hb]
  | @replaced a xp pre suf hlist hnode hnames hnew =>
    refine (hs.erase hlist).cons { cp with valid := true } ?_
    -- the only other one with these names has been taken from the list
    intro b hb hsame
    have hba : b ≠ a := fun h => hs.not_mem hlist (h ▸ hb)
    have hold : names s.node b = names s.node a := by
      rw [(names_of_sameNames hnode).mpr hnames, ← hsame]
      simp [names, update_of_ne hba]
    refine hba (inj_on_of_nodup_map hs.unique ?_ ?_ hold)
    · rw [hlist]
      exact (List.Sublist.append_left (sublist_cons_self a suf) pre).subset hb
    · simp [hlist]
  | fresh hnone =>
    refine hs.cons { cp with valid := true } fun a ha hsame => ?_
    obtain ⟨xp, hxp⟩ := hs.exists_node ha
    exact hnone a ha xp hxp ((names_of_sameNames hxp).mp hsame)

theorem Installed.mem : y ∈ s'.cinfo := by
  cases h with
  | kept hmem _ _ _ => exact hmem
  | replaced _ _ _ _ | fresh _ => exact mem_cons_self

theorem Installed.peers : s'.peers = s.peers := by
  cases h <;> rfl

theorem Installed.wild : s'.wild = s.wild := by
  cases h <;> rfl

/-- The certificate would be put in the place of the one at an address. -/
def Replaces (s : CertSys) (cp : CertNode) (a : Nat) : Prop :=
  ∃ xp, s.node a = some xp ∧ sameNames cp xp ∧ xp.cert.fstamp < cp.cert.fstamp

/-- Only a certificate that is replaced leaves the list, and then the new one is returned. -/
theorem Installed.not_mem_iff (hs : Cached s) (ha : a ∈ s.cinfo) :
    (a ∉ s'.cinfo ↔ Replaces s cp a) ∧
      (Replaces s cp a → s'.node y = some { cp with valid := true }) := by
  have hnext : a ≠ s.next := (hs.past a ha).ne
  cases h with
  | kept hmem hnode hnames hold =>
    -- the one that is kept is the only one with these names
    have hno : ¬ Replaces s cp a := by
      rintro ⟨zp, hzp, hz, hlt⟩
      obtain rfl := hs.eq_of_sameNames ha hmem hzp hnode hz hnames
      rw [hnode] at hzp
      cases hzp
      exact absurd hold (BitVec.not_le.mpr hlt)
    exact ⟨iff_of_false (not_not.mpr ha) hno, fun h => absurd h hno⟩
  | @replaced b xp pre suf hlist hnode hnames hnew =>
    refine ⟨?_, fun _ => update_self _ _ _⟩
    have hb : b ∈ s.cinfo := by simp [hlist]
    have hiff : a ∉ s.next :: (pre ++ suf) ↔ a = b := by
      have hnot := hs.not_mem hlist
      constructor
      · intro h
        simp_all
      · rintro rfl h
        exact hnot ((mem_cons.mp h).resolve_left hnext)
    rw [hiff]
    constructor
    · rintro rfl
      exact ⟨xp, hnode, hnames, BitVec.not_le.mp hnew⟩
    · rintro ⟨zp, hzp, hz, -⟩
      exact hs.eq_of_sameNames ha hb hzp hnode hz hnames
  | fresh hnone =>
    have hno : ¬ Replaces s cp a := fun ⟨zp, hzp, hz, _⟩ => hnone a ha zp hzp hz
    exact ⟨iff_of_false (not_not.mpr (mem_cons_of_mem _ ha)) hno, fun h => absurd h hno⟩

end

/-! ### `cert_hike` -/

/-- The new certificate is the end of a trail that is not trusted, and `cert_hike`
    does not look at the old one. -/
def Untrusted (yp : CertNode) : Prop := yp.subject = yp.issuer ∧ yp.trust = false

/-- What `cert_hike` does: it makes the association refer to the certificate, changes
    flags, and goes wild if it looks at a certificate that is not there. -/
structure Hiked (i y : Nat) (yp : CertNode) (s s' : CertSys) : Prop where
  cinfo : s'.cinfo = s.cinfo
  next : s'.next = s.next
  names : ∀ a, names s'.node a = names s.node a
  others : ∀ j, j ≠ i → (s'.peers j).xinfo = (s.peers j).xinfo
  xinfo : (s'.peers i).xinfo = some y
  wild : s'.wild = true ↔
    s.wild = true ∨ ¬ Untrusted yp ∧ ∃ a, (s.peers i).xinfo = some a ∧ s.node a = none

theorem names_light (flag : CertNode → CertNode)
    (hflag : ∀ c, (flag c).subject = c.subject ∧ (flag c).issuer = c.issuer) (a b : Nat) :
    names (s.light flag a).node b = names s.node b := by
  by_cases hb : b = a
  · subst hb
    cases hnode : s.node b with
    | none => simp [names, CertSys.light, hnode]
    | some c => simp [names, CertSys.light, hnode, hflag c]
  · simp [names, CertSys.light, update_of_ne hb]

theorem hikeVerify_spec (yp : CertNode) (a : Nat) (s : CertSys) :
    (hikeVerify lib yp a s).2.cinfo = s.cinfo ∧ (hikeVerify lib yp a s).2.next = s.next ∧
      (∀ b, names (hikeVerify lib yp a s).2.node b = names s.node b) ∧
      (hikeVerify lib yp a s).2.peers = s.peers ∧
      ((hikeVerify lib yp a s).2.wild = true ↔ s.wild = true ∨ s.node a = none) := by
  have herror := names_light (s := s) (fun c => { c with error := true }) (fun _ => ⟨rfl, rfl⟩) a
  have hsign := names_light (s := s) (fun c => { c with sign := true }) (fun _ => ⟨rfl, rfl⟩) a
  unfold hikeVerify
  cases hnode : s.node a with
  | none => exact ⟨rfl, rfl, fun _ => rfl, rfl, by simp⟩
  | some xp =>
    simp only
    split_ifs
    · exact ⟨rfl, rfl, herror, rfl, by simp [CertSys.light]⟩
    · exact ⟨rfl, rfl, herror, rfl, by simp [CertSys.light]⟩
    · exact ⟨rfl, rfl, herror, rfl, by simp [CertSys.light]⟩
    · exact ⟨rfl, rfl, hsign, rfl, by simp [CertSys.light]⟩

theorem setPeer_others (s : CertSys) {i j : Nat} (peer : CertPeer) (hj : j ≠ i) :
    (s.setPeer i peer).peers j = s.peers j :=
  update_of_ne hj _ _

theorem setPeer_self (s : CertSys) (i : Nat) (peer : CertPeer) :
    (s.setPeer i peer).peers i = peer :=
  update_self _ _ _

theorem certHike_spec (i : Nat) {yp : CertNode} (hy : s.node y = some yp) :
    Hiked i y yp s (certHike lib i y s).2 := by
  unfold certHike
  simp only [hy]
  by_cases huntrusted : yp.subject = yp.issuer ∧ yp.trust = false
  · rw [if_pos huntrusted]
    refine ⟨rfl, rfl, fun _ => rfl, fun j hj => ?_, ?_, ?_⟩
    · rw [setPeer_others s _ hj]
    · rw [setPeer_self]
    · exact ⟨.inl, fun h => h.resolve_right fun hno => hno.1 huntrusted⟩
  · rw [if_neg huntrusted]
    -- whether the trail is complete makes no difference to the reference
    obtain ⟨peer, hpeer, hxinfo⟩ : ∃ peer : CertPeer,
        (if yp.subject = yp.issuer
          then complete yp { s.peers i with issuer := some yp.issuer, xinfo := some y }
          else { s.peers i with issuer := some yp.issuer, xinfo := some y }) = peer ∧
        peer.xinfo = some y := by
      split_ifs
      · exact ⟨_, rfl, rfl⟩
      · exact ⟨_, rfl, rfl⟩
    rw [hpeer]
    cases hold : (s.peers i).xinfo with
    | none =>
      refine ⟨rfl, rfl, fun _ => rfl, fun j hj => ?_, ?_, ?_⟩
      · rw [setPeer_others s _ hj]
      · rw [setPeer_self, hxinfo]
      · simp [CertSys.setPeer, hold]
    | some a =>
      obtain ⟨hcinfo, hnext, hnames, hpeers, hwild⟩ :=
        hikeVerify_spec lib yp a (s.setPeer i peer)
      refine ⟨hcinfo, hnext, hnames, fun j hj => ?_, ?_, ?_⟩
      · rw [hpeers, setPeer_others s _ hj]
      · rw [hpeers, setPeer_self, hxinfo]
      · refine hwild.trans (or_congr Iff.rfl ?_)
        simp [Untrusted, huntrusted, hold, CertSys.setPeer]

theorem Hiked.cached {i : Nat} {yp : CertNode} (h : Hiked i y yp s s') (hs : Cached s) :
    Cached s' :=
  hs.of_names h.cinfo h.names h.next.ge

/-! ### Responses -/

/-- Every association refers to a certificate of the list or to none, no function
    has looked at one that was freed, and no two of the list have the same names. -/
structure Sound (s : CertSys) : Prop where
  refs : ∀ i a, (s.peers i).xinfo = some a → a ∈ s.cinfo
  tame : s.wild = false
  unique : (s.cinfo.map (names s.node)).Nodup

/-- The condition on a response: no association refers to the certificate that is replaced, unless
    it is the one that gets the new certificate and does not look at the old one. -/
def CertOk (s : CertSys) : CertEvent → Prop
  | .cert i (some cp) => ∀ j a, (s.peers j).xinfo = some a → Replaces s cp a → j = i ∧ Untrusted cp
  | .sign _ (some cp) => ∀ j a, (s.peers j).xinfo = some a → ¬ Replaces s cp a
  | _ => True

theorem certStep_cached (e : CertEvent) (hs : Cached s) : Cached (certStep lib s e) := by
  cases e with
  | cert i cp =>
    cases cp with
    | none => exact hs
    | some cp =>
      obtain ⟨y, s1, hinstall, h⟩ := certInstall_installed hs cp
      have hs1 := h.cached hs
      obtain ⟨yp, hy⟩ := hs1.exists_node h.mem
      simp only [certStep, hinstall]
      exact (certHike_spec lib i hy).cached hs1
  | sign i cp =>
    cases cp with
    | none => exact hs
    | some cp =>
      obtain ⟨y, s1, hinstall, h⟩ := certInstall_installed hs cp
      simp only [certStep, hinstall]
      exact h.cached hs
  | clear i => exact ⟨hs.live, hs.past, hs.unique⟩

/-- After a certificate has been installed, references are as good as it was careful. -/
theorem Installed.refs_iff (h : Installed s cp y s') (hs : Cached s) (hsound : Sound s) {j a : Nat}
    (hj : (s.peers j).xinfo = some a) : a ∈ s'.cinfo ↔ ¬ Replaces s cp a := by
  rw [← (h.not_mem_iff hs (hsound.refs j a hj)).1, not_not]

theorem certStep_cert_iff (i : Nat) (cp : CertNode) (hs : Cached s) (hsound : Sound s) :
    Sound (certStep lib s (.cert i (some cp))) ↔ CertOk s (.cert i (some cp)) := by
  obtain ⟨y, s1, hinstall, h⟩ := certInstall_installed hs cp
  have hs1 := h.cached hs
  obtain ⟨yp, hy⟩ := hs1.exists_node h.mem
  obtain ⟨s2, hs2⟩ : ∃ s2, (certHike lib i y s1).2 = s2 := ⟨_, rfl⟩
  have hhike : Hiked i y yp s1 s2 := hs2 ▸ certHike_spec lib i hy
  have hstep : certStep lib s (.cert i (some cp)) = s2 := by
    simp only [certStep, hinstall, hs2]
  rw [hstep]
  have hgone : ∀ j a, (s.peers j).xinfo = some a → (s1.node a = none ↔ Replaces s cp a) := by
    intro j a hj
    rw [← (h.not_mem_iff hs (hsound.refs j a hj)).1, ← hs1.live a, not_isSome_iff_eq_none]
  -- a certificate that replaces another is the one `cert_hike` gets
  have hnew : ∀ j a, (s.peers j).xinfo = some a → Replaces s cp a →
      (Untrusted yp ↔ Untrusted cp) := by
    intro j a hj hrep
    have hnode := (h.not_mem_iff hs (hsound.refs j a hj)).2 hrep
    rw [hy] at hnode
    cases hnode
    rfl
  constructor
  · intro hsound2 j a hj hrep
    have hout : a ∉ s1.cinfo := fun hin => (h.refs_iff hs hsound hj).mp hin hrep
    by_cases hji : j = i
    · subst hji
      refine ⟨rfl, ?_⟩
      by_contra htrusted
      have hwild : s2.wild = true := by
        refine hhike.wild.mpr (.inr ⟨fun hyp => htrusted ((hnew j a hj hrep).mp hyp), a, ?_, ?_⟩)
        · rw [h.peers, hj]
        · exact (hgone j a hj).mpr hrep
      rw [hsound2.tame] at hwild
      cases hwild
    · exfalso
      refine hout (hhike.cinfo ▸ hsound2.refs j a ?_)
      rw [hhike.others j hji, h.peers, hj]
  · intro hok
    refine ⟨fun j a hj => ?_, ?_, (hhike.cached hs1).unique⟩
    · rw [hhike.cinfo]
      by_cases hji : j = i
      · subst hji
        rw [hhike.xinfo] at hj
        cases hj
        exact h.mem
      · rw [hhike.others j hji, h.peers] at hj
        exact (h.refs_iff hs hsound hj).mpr fun hrep => hji (hok j a hj hrep).1
    · refine Bool.eq_false_iff.mpr fun hwild => ?_
      rcases hhike.wild.mp hwild with hbefore | ⟨htrusted, a, ha, hnone⟩
      · rw [h.wild, hsound.tame] at hbefore
        cases hbefore
      · rw [h.peers] at ha
        have hrep := (hgone i a ha).mp hnone
        exact htrusted ((hnew i a ha hrep).mpr (hok i a ha hrep).2)

theorem certStep_sign_iff (i : Nat) (cp : CertNode) (hs : Cached s) (hsound : Sound s) :
    Sound (certStep lib s (.sign i (some cp))) ↔ CertOk s (.sign i (some cp)) := by
  obtain ⟨y, s1, hinstall, h⟩ := certInstall_installed hs cp
  have hstep : certStep lib s (.sign i (some cp)) = s1 := by
    simp only [certStep, hinstall]
  rw [hstep]
  constructor
  · intro hsound1 j a hj
    refine (h.refs_iff hs hsound hj).mp (hsound1.refs j a ?_)
    rw [h.peers, hj]
  · intro hok
    refine ⟨fun j a hj => ?_, ?_, (h.cached hs).unique⟩
    · rw [h.peers] at hj
      exact (h.refs_iff hs hsound hj).mpr (hok j a hj)
    · rw [h.wild, hsound.tame]

theorem certStep_sound_iff (e : CertEvent) (hs : Cached s) (hsound : Sound s) :
    Sound (certStep lib s e) ↔ CertOk s e := by
  cases e with
  | cert i cp =>
    cases cp with
    | none => exact iff_of_true hsound trivial
    | some cp => exact certStep_cert_iff lib i cp hs hsound
  | sign i cp =>
    cases cp with
    | none => exact iff_of_true hsound trivial
    | some cp => exact certStep_sign_iff lib i cp hs hsound
  | clear i =>
    refine iff_of_true ⟨fun j a hj => ?_, hsound.tame, hsound.unique⟩ trivial
    by_cases hji : j = i
    · subst hji
      simp [certStep, setPeer_self] at hj
    · refine hsound.refs j a ?_
      rw [← hj]
      simp [certStep, setPeer_others s _ hji]

theorem setup_cached (host : CertNode) (peers : Nat → CertPeer) : Cached (setup host peers) := by
  refine ⟨fun a => ?_, fun a ha => ?_, by simp [setup]⟩
  · by_cases ha : a = 1
    · simp [setup, CertSys.alloc, ha]
    · simp [setup, CertSys.alloc, ha]
  · obtain rfl : a = 1 := by simpa [setup] using ha
    exact Nat.lt_succ_self 1

theorem setup_sound (host : CertNode) (peers : Nat → CertPeer) : Sound (setup host peers) :=
  ⟨fun i a hi => by simp [setup] at hi, rfl, (setup_cached host peers).unique⟩

/-- For every set of associations and every sequence of responses: all along the way
    every association refers to a certificate of the list or to none, no freed
    certificate is looked at, and no two of the list have the same names, if and
    only if no response replaces a certificate that an association refers to. -/
theorem references_sound_iff (lib : X509) (host : CertNode) (peers : Nat → CertPeer)
    (es : List CertEvent) :
    (∀ done, done <+: es → Sound (Run.exec (certStep lib) (setup host peers) done)) ↔
      Run.Meets (certStep lib) CertOk (setup host peers) es := by
  rw [Run.prefixes_iff_meets (fun _ e => certStep_cached lib e)
    (fun _ e => certStep_sound_iff lib e) _ es (setup_cached host peers)]
  exact and_iff_right (setup_sound host peers)

end Cache

/-! ### References that are lost -/

/-- A certificate of a server, signed by another, that was made at a time. -/
def plainCert (fstamp : BitVec 32) : CertNode where
  subject := [0x61]
  issuer := [0x62]
  trust := false
  priv := false
  error := false
  cert := { fstamp := fstamp }
  pkey := none
  first := fstamp
  last := 0xffffffff

/-- The certificate of this host, signed by itself. -/
def hostCert : CertNode := { plainCert 1 with subject := [0x63], issuer := [0x63] }

/-- A library that takes every certificate. -/
def plainLib : X509 := { decodes := fun _ => true, verifies := fun _ _ => true }

/-- Two associations get the certificate of the same server, and one of them gets a
    later one. The other refers to a certificate that was freed. The one that got
    it has looked at that certificate. -/
theorem references_lost :
    let s := Run.exec (certStep plainLib) (setup hostCert fun _ => {})
      [.cert 7 (some (plainCert 10)), .cert 8 (some (plainCert 10)), .cert 8 (some (plainCert 20))]
    (s.cinfo = [4, 1] ∧ (s.peers 7).xinfo = some 2 ∧ (s.node 2).isSome = false ∧
      s.wild = true) ∧ ¬ Sound s := by
  refine ⟨by decide, fun h => ?_⟩
  have hmem := h.refs 7 2 (by decide)
  exact absurd hmem (by decide)

end NtpSuite.Certs
