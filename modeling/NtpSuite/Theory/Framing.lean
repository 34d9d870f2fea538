import NtpSuite.Lib.Loop
import NtpSuite.Core.Receive
import NtpSuite.Core.Defaults

/-!
# The Framing of a Datagram

What the loop over the extension fields accepts, and which octets of the
buffer it looks at on the way.

The loop is the first code to see lengths that the sender has chosen. It is
written with a signed `has_mac` that is compared with unsigned constants, so
a datagram shorter than the header is not caught by the first test: a
negative length is a very large one after the conversion. It is caught by the
third, which compares signed numbers, and by then a word past the end of the
datagram has been read.

`extenTurn` is one turn of the loop, and `parseExten` is the loop run with a
number of turns that is always enough. `turnReads` has the octets a turn
looks at; `extenTurn_congr` says that there are no others.

## Main definitions

* `extenTurn`: One turn of the loop.
* `Fields`: Consecutive extension fields of given lengths.
* `Framed`: What is known at the head of every turn.
* `turnReads`, `nameReads`: The octets a turn reads, and those it copies.
* `ShortNamed`: A field with a name for which it has no room.

## Theorems

* `packet_framing`: The loop terminates, and what it accepts is well framed.
* `extenTurn_congr`: A turn reads the octets of `turnReads` only.
* `parse_reads_inside_iff`: When the loop stays inside the datagram.
-/

namespace NtpSuite

open List

variable {α : Type}

/-! ### One turn -/

/-- The length an extension field at an offset declares. -/
def declaredLen (rb : RecvBuf) (off : Nat) : Nat := (rb.word (off / 4) &&& 0xffff).toNat

/-- What is left is longer than a MAC, so the turn looks for a field. -/
def AtField (f : Frame) : Prop :=
  f.has_mac ≠ 0 ∧ ¬(f.has_mac % 4 ≠ 0 ∨ sizeT f.has_mac < MIN_MAC_LEN) ∧
    ¬sizeT f.has_mac ≤ MAX_MAC_LEN

/-- The declared length passes the check of the turn. -/
def Fits (rb : RecvBuf) (f : Frame) : Prop :=
  ¬(declaredLen rb f.authlen % 4 ≠ 0 ∨ declaredLen rb f.authlen < 4 ∨
    (declaredLen rb f.authlen : Int) + f.authlen > rb.recv_length)

instance (f : Frame) : Decidable (AtField f) := by unfold AtField; infer_instance

instance (rb : RecvBuf) (f : Frame) : Decidable (Fits rb f) := by unfold Fits; infer_instance

/-- One turn of the loop: on with the next field, or out of the loop. -/
def extenTurn (c : Cfg α) (rb : RecvBuf) (f : Frame) : Frame ⊕ Except FrameErr Frame :=
  if f.has_mac = 0 then .inr (.ok f)
  else if f.has_mac % 4 ≠ 0 ∨ sizeT f.has_mac < MIN_MAC_LEN then .inr (.error .badlength)
  else if sizeT f.has_mac ≤ MAX_MAC_LEN then
    .inr (.ok { f with skeyid := (rb.word (f.authlen / 4)).toNat })
  else if Fits rb f then
    match extractGroup c rb f (rb.word (f.authlen / 4)) (declaredLen rb f.authlen) with
    | .error err => .inr (.error err)
    | .ok grp => .inl
      { f with
        authlen := f.authlen + declaredLen rb f.authlen
        has_mac := f.has_mac - declaredLen rb f.authlen
        opcode := rb.word (f.authlen / 4)
        groupname := grp }
  else .inr (.error .badlength)

/-- The frame the loop is entered with. -/
def frameStart (rb : RecvBuf) : Frame :=
  { authlen := LEN_PKT_NOMAC, has_mac := rb.recv_length - LEN_PKT_NOMAC }

/-- The loop with a number of turns is a turn and the loop with one less. -/
theorem parseExten_succ (c : Cfg α) (rb : RecvBuf) (n : Nat) (f : Frame) :
    parseExten c rb (n + 1) f =
      match extenTurn c rb f with
      | .inr r => r
      | .inl g => parseExten c rb n g := by
  rw [parseExten]
  unfold extenTurn
  by_cases h0 : f.has_mac = 0
  · simp [h0]
  by_cases h1 : f.has_mac % 4 ≠ 0 ∨ sizeT f.has_mac < MIN_MAC_LEN
  · simp only [h0, h1, if_true, if_false]
  by_cases h2 : sizeT f.has_mac ≤ MAX_MAC_LEN
  · simp only [h0, h1, h2, if_true, if_false]
  simp only [h0, h1, h2, if_false]
  -- The check of the length is the same on both sides.
  by_cases hfit : Fits rb f
  · rw [if_pos hfit]
    unfold Fits declaredLen at hfit
    unfold declaredLen
    rw [if_neg hfit]
    cases extractGroup c rb f (rb.word (f.authlen / 4))
        (rb.word (f.authlen / 4) &&& 0xffff).toNat with
    | error err | ok grp => rfl
  · rw [if_neg hfit]
    unfold Fits declaredLen at hfit
    rw [if_pos (not_not.mp hfit)]

variable {c : Cfg α} {rb : RecvBuf} {f : Frame}

/-- A turn that goes on has found a field that fits, and has passed it. -/
theorem extenTurn_again {g : Frame} (h : extenTurn c rb f = .inl g) :
    AtField f ∧ Fits rb f ∧ g.authlen = f.authlen + declaredLen rb f.authlen ∧
      g.has_mac = f.has_mac - declaredLen rb f.authlen := by
  unfold extenTurn at h
  split at h
  · cases h
  rename_i h0
  split at h
  · cases h
  rename_i h1
  split at h
  · cases h
  rename_i h2
  split at h
  · rename_i hfit
    split at h
    · cases h
    · cases h
      exact ⟨⟨h0, h1, h2⟩, hfit, rfl, rfl⟩
  · cases h

/-- A turn that leaves the loop without rejecting the packet leaves it with
    the frame as it is, but for the key identifier. -/
theorem extenTurn_ok {g : Frame} (h : extenTurn c rb f = .inr (.ok g)) :
    g.authlen = f.authlen ∧ g.has_mac = f.has_mac ∧
      (f.has_mac = 0 ∨
        f.has_mac % 4 = 0 ∧ MIN_MAC_LEN ≤ sizeT f.has_mac ∧ sizeT f.has_mac ≤ MAX_MAC_LEN) := by
  unfold extenTurn at h
  split at h
  · rename_i h0
    cases h
    exact ⟨rfl, rfl, .inl h0⟩
  split at h
  · cases h
  rename_i h1
  split at h
  · rename_i h2
    cases h
    simp only [not_or, not_lt, ne_eq, not_not] at h1
    exact ⟨rfl, rfl, .inr ⟨h1.1, h1.2, h2⟩⟩
  split at h
  · split at h
    · cases h
    · cases h
  · cases h

/-! ### Fields in a row -/

/-- Consecutive fields of the given lengths stand in the buffer from an offset on. -/
def Fields (rb : RecvBuf) : Nat → List Nat → Prop
  | _, [] => True
  | off, len :: lens => declaredLen rb off = len ∧ Fields rb (off + len) lens

theorem Fields.snoc {off : Nat} {lens : List Nat} (h : Fields rb off lens) :
    Fields rb off (lens ++ [declaredLen rb (off + lens.sum)]) := by
  induction lens generalizing off with
  | nil => exact ⟨by simp, trivial⟩
  | cons len lens ih =>
    have htail := ih h.2
    rw [Nat.add_assoc] at htail
    exact ⟨h.1, htail⟩

/-- What is known at the head of every turn. Only the first turn can find a
    negative length, since a field that does not fit ends the loop. -/
structure Framed (rb : RecvBuf) (f : Frame) : Prop where
  total : (f.authlen : Int) + f.has_mac = rb.recv_length
  room : f.authlen = LEN_PKT_NOMAC ∨ 0 ≤ f.has_mac
  fields : ∃ lens, Fields rb LEN_PKT_NOMAC lens ∧ f.authlen = LEN_PKT_NOMAC + lens.sum ∧
    ∀ len ∈ lens, len % 4 = 0 ∧ 4 ≤ len

theorem framed_start (rb : RecvBuf) : Framed rb (frameStart rb) where
  total := by
    simp only [frameStart]
    omega
  room := .inl rfl
  fields := ⟨[], trivial, rfl, by simp⟩

/-- A field that fits has a length the loop makes progress with. -/
theorem Fits.len (h : Fits rb f) :
    declaredLen rb f.authlen % 4 = 0 ∧ 4 ≤ declaredLen rb f.authlen ∧
      (declaredLen rb f.authlen : Int) + f.authlen ≤ rb.recv_length := by
  unfold Fits at h
  omega

theorem Framed.turn {g : Frame} (hf : Framed rb f) (h : extenTurn c rb f = .inl g) :
    Framed rb g := by
  obtain ⟨-, hfit, hauth, hmac⟩ := extenTurn_again h
  obtain ⟨hmod, hmin, hmax⟩ := hfit.len
  have htotal := hf.total
  obtain ⟨lens, hrow, hsum, hlens⟩ := hf.fields
  refine ⟨by omega, .inr (by omega), lens ++ [declaredLen rb f.authlen], ?_, ?_, ?_⟩
  · rw [hsum]
    exact hrow.snoc
  · rw [sum_append, sum_singleton]
    omega
  · intro len hlen
    rcases mem_append.mp hlen with hold | hnew
    · exact hlens len hold
    · rw [mem_singleton.mp hnew]
      exact ⟨hmod, hmin⟩

theorem framed_of_heads (h : Loop.Heads (extenTurn c rb) (frameStart rb) f) : Framed rb f :=
  h.invariant (fun _ _ hf ht => hf.turn ht) (framed_start rb)

/-! ### Termination -/

theorem extenTurn_lowers {g : Frame} (hf : Framed rb f) (h : extenTurn c rb f = .inl g) :
    g.has_mac.toNat < f.has_mac.toNat := by
  obtain ⟨-, hfit, -, hmac⟩ := extenTurn_again h
  obtain ⟨-, hmin, hmax⟩ := hfit.len
  have htotal := hf.total
  omega

/-- With more turns than there are octets left, `parseExten` is the loop. -/
theorem parseExten_of_ends {r : Except FrameErr Frame} (h : Loop.Ends (extenTurn c rb) f r)
    (hf : Framed rb f) (n : Nat) (hn : f.has_mac.toNat < n) : parseExten c rb n f = r := by
  induction h generalizing n with
  | leave f r hr =>
    cases n with
    | zero => omega
    | succ n => rw [parseExten_succ, hr]
  | turn f g r hg _ ih =>
    cases n with
    | zero => omega
    | succ n =>
      rw [parseExten_succ, hg]
      have hlow := extenTurn_lowers hf hg
      exact ih (hf.turn hg) n (by omega)

/-- The loop over a datagram ends with the frame of the datagram. -/
theorem ends_parseFrame (c : Cfg α) (rb : RecvBuf) :
    Loop.Ends (extenTurn c rb) (frameStart rb) (parseFrame c rb) := by
  have hturn : ∀ f g, Framed rb f → extenTurn c rb f = .inl g →
      Framed rb g ∧ g.has_mac.toNat < f.has_mac.toNat :=
    fun f g hf hg => ⟨hf.turn hg, extenTurn_lowers hf hg⟩
  obtain ⟨r, hr⟩ := Loop.ends_of_measure _ hturn (frameStart rb) (framed_start rb)
  have hparse : parseFrame c rb = r := by
    apply parseExten_of_ends hr (framed_start rb)
    show (rb.recv_length - LEN_PKT_NOMAC).toNat < rb.recv_length.toNat + 1
    omega
  rw [hparse]
  exact hr

/-! ### What is accepted -/

/-- In the range of `int` a length that is no larger than a MAC after its
    conversion was not negative before. -/
theorem eq_sizeT_of_le {n : Int} (hlo : -2 ^ 32 ≤ n) (hhi : n < 2 ^ 32)
    (h : sizeT n ≤ MAX_MAC_LEN) : n = sizeT n := by
  simp only [sizeT, MAX_MAC_LEN] at h ⊢
  omega

theorem parseFrame_ok (hlo : -2 ^ 31 ≤ rb.recv_length) (hhi : rb.recv_length < 2 ^ 31)
    (h : parseFrame c rb = .ok f) :
    Framed rb f ∧
      (f.has_mac = 0 ∨
        f.has_mac % 4 = 0 ∧ (MIN_MAC_LEN : Int) ≤ f.has_mac ∧ f.has_mac ≤ MAX_MAC_LEN) := by
  have hends := ends_parseFrame c rb
  rw [h] at hends
  obtain ⟨g, hg, hleave⟩ := hends.leaves
  obtain ⟨hauth, hmac, hlast⟩ := extenTurn_ok hleave
  have hframed := framed_of_heads hg
  have htotal := hframed.total
  have hroom := hframed.room
  constructor
  · exact ⟨by rw [hauth, hmac]; exact htotal, by rw [hauth, hmac]; exact hroom,
      by rw [hauth]; exact hframed.fields⟩
  · rw [hmac]
    rcases hlast with hzero | ⟨hmod, hmin, hmax⟩
    · exact .inl hzero
    · have hbase : (LEN_PKT_NOMAC : Int) = 48 := rfl
      have hsize := eq_sizeT_of_le (by omega) (by omega) hmax
      exact .inr ⟨hmod, by omega, by omega⟩

/-- Packet framing. The loop over the extension fields and the MAC leaves after finitely many turns,
    for every length the receive call can store in an `int` and every content of the buffer. If it
    does not reject the packet, the packet is the header, consecutive extension fields and nothing
    or a MAC, and their lengths add up to the length received. A packet shorter than the header is
    rejected. -/
theorem packet_framing (c : Cfg α) (rb : RecvBuf) (hlo : -2 ^ 31 ≤ rb.recv_length)
    (hhi : rb.recv_length < 2 ^ 31) :
    Loop.Ends (extenTurn c rb) (frameStart rb) (parseFrame c rb) ∧ (∀ f, parseFrame c rb = .ok f →
      (∃ lens, Fields rb LEN_PKT_NOMAC lens ∧ f.authlen = LEN_PKT_NOMAC + lens.sum ∧
        ∀ len ∈ lens, len % 4 = 0 ∧ 4 ≤ len) ∧
      (f.authlen : Int) + f.has_mac = rb.recv_length ∧
      (f.has_mac = 0 ∨
        f.has_mac % 4 = 0 ∧ (MIN_MAC_LEN : Int) ≤ f.has_mac ∧ f.has_mac ≤ MAX_MAC_LEN)) ∧
    (rb.recv_length < LEN_PKT_NOMAC → ∃ err, parseFrame c rb = .error err) := by
  refine ⟨ends_parseFrame c rb, ?_, ?_⟩
  · intro f hf
    obtain ⟨hframed, hmac⟩ := parseFrame_ok hlo hhi hf
    exact ⟨hframed.fields, hframed.total, hmac⟩
  · intro hshort
    cases hparse : parseFrame c rb with
    | error err => exact ⟨err, rfl⟩
    | ok f =>
      -- The fields start after the header and the MAC is not negative.
      obtain ⟨hframed, hmac⟩ := parseFrame_ok hlo hhi hparse
      obtain ⟨lens, -, hsum, -⟩ := hframed.fields
      have htotal := hframed.total
      omega

/-- A datagram with an extension field of eight octets and a MAC of twenty. -/
def fieldPacket : RecvBuf where
  recv_length := 76
  exten := [0x00010008, 0, 1, 0, 0, 0, 0]

theorem packet_framing_fieldPacket :
    parseFrame defaultCfg fieldPacket =
      .ok { authlen := 56, has_mac := 20, skeyid := 1, opcode := 0x00010008 } ∧
    Loop.Ends (extenTurn defaultCfg fieldPacket) (frameStart fieldPacket)
      (parseFrame defaultCfg fieldPacket) :=
  ⟨by decide, (packet_framing defaultCfg fieldPacket (by decide) (by decide)).1⟩

/-! ### The octets that are read -/

/-- The octets of a word of the buffer. -/
def wordOctets (i : Nat) : List Nat := (List.range 4).map (4 * i + ·)

/-- The field is a request for an association and there is a group to match. -/
def AsksGroup (c : Cfg α) (rb : RecvBuf) (f : Frame) : Prop :=
  c.autokey ∧ rb.word (f.authlen / 4) &&& 0x3fff0000 = CRYPTO_ASSOC ∧ c.sys_groupname.isSome

instance (c : Cfg α) (rb : RecvBuf) (f : Frame) : Decidable (AsksGroup c rb f) := by
  unfold AsksGroup; infer_instance

/-- `vallen` of the field, the length of the name in it. -/
def vallen (rb : RecvBuf) (f : Frame) : Nat := (rb.word (f.authlen / 4 + 4)).toNat

/-- The octets of the name that the turn copies. -/
def nameReads (c : Cfg α) (rb : RecvBuf) (f : Frame) : List Nat :=
  if AtField f ∧ Fits rb f ∧ AsksGroup c rb f then
    if vallen rb f ≥ 257 ∨ vallen rb f > sizeT ((declaredLen rb f.authlen : Int) - 20) then []
    else (List.range (vallen rb f)).map (f.authlen + 20 + ·)
  else []

/-- The octets of the buffer that the turn reads. -/
def turnReads (c : Cfg α) (rb : RecvBuf) (f : Frame) : List Nat :=
  if f.has_mac = 0 then []
  else if f.has_mac % 4 ≠ 0 ∨ sizeT f.has_mac < MIN_MAC_LEN then []
  else
    -- The key identifier or the first word of a field.
    wordOctets (f.authlen / 4) ++
      (if AtField f ∧ Fits rb f ∧ AsksGroup c rb f then wordOctets (f.authlen / 4 + 4) else []) ++
      nameReads c rb f

theorem getLsbD_word (rb : RecvBuf) (w i : Nat) (hi : i < 32) :
    (rb.word w).getLsbD i = (rb.byte (4 * w + (3 - i / 8))).getLsbD (i % 8) := by
  unfold RecvBuf.byte
  have hdiv : (4 * w + (3 - i / 8)) / 4 = w := by omega
  have hmod : (4 * w + (3 - i / 8)) % 4 = 3 - i / 8 := by omega
  have hshift : 24 - 8 * (3 - i / 8) + i % 8 = i := by omega
  have hbit : i % 8 < 8 := Nat.mod_lt i (by decide)
  rw [hdiv, hmod, BitVec.getLsbD_setWidth, BitVec.getLsbD_ushiftRight, hshift]
  simp [hbit]

/-- Two buffers that agree on the octets of a word agree on the word. -/
theorem word_congr {rb' : RecvBuf} {w : Nat}
    (h : ∀ i ∈ wordOctets w, rb'.byte i = rb.byte i) : rb'.word w = rb.word w := by
  apply BitVec.eq_of_getLsbD_eq
  intro i hi
  rw [getLsbD_word rb' w i hi, getLsbD_word rb w i hi]
  rw [h (4 * w + (3 - i / 8))]
  exact mem_map.mpr ⟨3 - i / 8, mem_range.mpr (by omega), rfl⟩

/-- The group of a field depends on the name of the field only. -/
theorem extractGroup_congr {rb' : RecvBuf} (hat : AtField f) (hfit : Fits rb f)
    (h : ∀ i ∈ turnReads c rb f, rb'.byte i = rb.byte i) :
    extractGroup c rb' f (rb.word (f.authlen / 4)) (declaredLen rb f.authlen) =
      extractGroup c rb f (rb.word (f.authlen / 4)) (declaredLen rb f.authlen) := by
  have h0 := hat.1
  have h1 := hat.2.1
  unfold extractGroup
  by_cases hask : AsksGroup c rb f
  · have hcond : AtField f ∧ Fits rb f ∧ AsksGroup c rb f := ⟨hat, hfit, hask⟩
    have hval : rb'.word (f.authlen / 4 + 4) = rb.word (f.authlen / 4 + 4) := by
      apply word_congr
      intro i hi
      apply h i
      rw [turnReads, if_neg h0, if_neg h1, if_pos hcond]
      exact mem_append_left _ (mem_append_right _ hi)
    unfold AsksGroup at hask
    rw [if_pos hask, hval]
    simp only []
    split
    · rfl
    · rename_i hlen
      -- The octets of the name are the same, so its list is.
      congr 2
      apply map_congr_left
      intro i hi
      apply h
      rw [turnReads, if_neg h0, if_neg h1]
      apply mem_append_right
      unfold nameReads vallen
      rw [if_pos hcond, if_neg hlen]
      exact mem_map.mpr ⟨i, hi, rfl⟩
  · unfold AsksGroup at hask
    rw [if_neg hask, if_neg hask]

/-- A turn reads nothing but the octets of `turnReads`: on another buffer of
    the same length with these octets it does the same. -/
theorem extenTurn_congr {rb' : RecvBuf} (hlen : rb'.recv_length = rb.recv_length)
    (h : ∀ i ∈ turnReads c rb f, rb'.byte i = rb.byte i) :
    extenTurn c rb' f = extenTurn c rb f := by
  unfold extenTurn
  by_cases h0 : f.has_mac = 0
  · rw [if_pos h0, if_pos h0]
  by_cases h1 : f.has_mac % 4 ≠ 0 ∨ sizeT f.has_mac < MIN_MAC_LEN
  · rw [if_pos h1, if_pos h1]
  -- From here on the first word of what is left has been read.
  have hword : rb'.word (f.authlen / 4) = rb.word (f.authlen / 4) := by
    apply word_congr
    intro i hi
    apply h i
    rw [turnReads, if_neg h0, if_neg h1]
    exact mem_append_left _ (mem_append_left _ hi)
  have hdecl : declaredLen rb' f.authlen = declaredLen rb f.authlen := by
    unfold declaredLen
    rw [hword]
  by_cases h2 : sizeT f.has_mac ≤ MAX_MAC_LEN
  · rw [if_pos h2, if_pos h2, hword]
  rw [if_neg h2, if_neg h2]
  have hfits : Fits rb' f ↔ Fits rb f := by
    unfold Fits
    rw [hdecl, hlen]
  by_cases hfit : Fits rb f
  · rw [if_pos hfit, if_pos (hfits.mpr hfit), hword, hdecl, extractGroup_congr ⟨h0, h1, h2⟩ hfit h]
  · rw [if_neg hfit, if_neg (mt hfits.mp hfit)]

/-! ### Inside the datagram -/

/-- Every octet the loop reads is one of the datagram, and every octet of a
    name one of the field the name is in. -/
def ReadsInside (c : Cfg α) (rb : RecvBuf) : Prop :=
  ∀ f, Loop.Heads (extenTurn c rb) (frameStart rb) f →
    (∀ i ∈ turnReads c rb f, (i : Int) < rb.recv_length) ∧
    ∀ i ∈ nameReads c rb f, i < f.authlen + declaredLen rb f.authlen

/-- The field is too short for the header of a name and has a name. -/
def ShortNamed (c : Cfg α) (rb : RecvBuf) (f : Frame) : Prop :=
  AtField f ∧ Fits rb f ∧ AsksGroup c rb f ∧ declaredLen rb f.authlen < 20 ∧
    0 < vallen rb f ∧ vallen rb f < 257

/-- The fields are whole words, so what is read starts where the last one ended. -/
theorem Framed.aligned (hf : Framed rb f) : f.authlen % 4 = 0 ∧ LEN_PKT_NOMAC ≤ f.authlen := by
  obtain ⟨lens, -, hsum, hlens⟩ := hf.fields
  have hmod : lens.sum % 4 = 0 := by
    clear hsum
    induction lens with
    | nil => rfl
    | cons len lens ih =>
      have hhead := (hlens len mem_cons_self).1
      have htail := ih (fun l hl => hlens l (mem_cons_of_mem len hl))
      rw [sum_cons]
      omega
  have hbase : LEN_PKT_NOMAC = 48 := rfl
  omega

/-- The name of a field is copied from where the header of the field ends. -/
theorem mem_nameReads {i : Nat} (h : i ∈ nameReads c rb f) :
    AtField f ∧ Fits rb f ∧ AsksGroup c rb f ∧ vallen rb f < 257 ∧
      vallen rb f ≤ sizeT ((declaredLen rb f.authlen : Int) - 20) ∧
      f.authlen + 20 ≤ i ∧ i < f.authlen + 20 + vallen rb f := by
  unfold nameReads at h
  split at h
  · rename_i hcond
    split at h
    · cases h
    · obtain ⟨j, hj, rfl⟩ := mem_map.mp h
      have hlt := mem_range.mp hj
      exact ⟨hcond.1, hcond.2.1, hcond.2.2, by omega, by omega, by omega, by omega⟩
  · cases h

/-- In a datagram with a whole header the turn finds what it reads. -/
theorem turn_inside (hhi : rb.recv_length < 2 ^ 31) (hlong : (LEN_PKT_NOMAC : Int) ≤ rb.recv_length)
    (hf : Framed rb f) (hname : ∀ i ∈ nameReads c rb f, i < f.authlen + declaredLen rb f.authlen) :
    ∀ i ∈ turnReads c rb f, (i : Int) < rb.recv_length := by
  intro i hi
  have htotal := hf.total
  have hpos : 0 ≤ f.has_mac := by
    rcases hf.room with hauth | hmac
    · omega
    · exact hmac
  have hsize : (sizeT f.has_mac : Int) = f.has_mac := by
    simp only [sizeT]
    omega
  unfold turnReads at hi
  split at hi
  · cases hi
  split at hi
  · cases hi
  rcases mem_append.mp hi with hhead | hcopied
  · rcases mem_append.mp hhead with hfirst | hval
    · -- The first word: there are at least four octets left.
      obtain ⟨k, hk, rfl⟩ := mem_map.mp hfirst
      have := mem_range.mp hk
      omega
    · -- The length of the name: there are more octets left than in a MAC.
      split at hval
      · rename_i hcond
        have hmax := hcond.1.2.2
        have : MAX_MAC_LEN = 24 := rfl
        obtain ⟨k, hk, rfl⟩ := mem_map.mp hval
        have := mem_range.mp hk
        omega
      · cases hval
  · -- The name: it ends in the field, and the field in the datagram.
    have hin := hname i hcopied
    have hend := (mem_nameReads hcopied).2.1.len.2.2
    omega

/-- Reading the first word of a field past the end of a datagram that is too short for a header. -/
theorem not_readsInside_of_short (hlo : -2 ^ 31 ≤ rb.recv_length)
    (hshort : rb.recv_length < LEN_PKT_NOMAC) (hmod : rb.recv_length % 4 = 0) :
    ¬ReadsInside c rb := by
  intro h
  have hbase : LEN_PKT_NOMAC = 48 := rfl
  have hmem : 48 ∈ turnReads c rb (frameStart rb) := by
    have hmac : (frameStart rb).has_mac = rb.recv_length - 48 := rfl
    have h0 : (frameStart rb).has_mac ≠ 0 := by omega
    have h1 : ¬((frameStart rb).has_mac % 4 ≠ 0 ∨ sizeT (frameStart rb).has_mac < MIN_MAC_LEN) := by
      simp only [sizeT, MIN_MAC_LEN]
      omega
    rw [turnReads, if_neg h0, if_neg h1]
    exact mem_append_left _ (mem_append_left _ (by decide : 48 ∈ wordOctets (48 / 4)))
  have hin := (h (frameStart rb) .enter).1 48 hmem
  omega

/-- Copying a name out of a field that is too short for one: the bound on the
    name is computed by an unsigned subtraction. -/
theorem not_readsInside_of_shortNamed (hf : Loop.Heads (extenTurn c rb) (frameStart rb) f)
    (hs : ShortNamed c rb f) : ¬ReadsInside c rb := by
  intro h
  obtain ⟨hat, hfit, hask, hlen, hpos, hmax⟩ := hs
  have hbound : ¬(vallen rb f ≥ 257 ∨
      vallen rb f > sizeT ((declaredLen rb f.authlen : Int) - 20)) := by
    simp only [sizeT]
    omega
  have hmem : f.authlen + 20 ∈ nameReads c rb f := by
    rw [nameReads, if_pos ⟨hat, hfit, hask⟩, if_neg hbound]
    exact mem_map.mpr ⟨0, mem_range.mpr hpos, rfl⟩
  have hin := (h f hf).2 (f.authlen + 20) hmem
  omega

/-- The loop stays inside the datagram, and the copy of a name inside its field, exactly when the
    datagram has a whole header or a length that is no multiple of four, and no field the loop comes
    to is a named request for an association that declares fewer octets than its header has. -/
theorem parse_reads_inside_iff (c : Cfg α) (rb : RecvBuf) (hlo : -2 ^ 31 ≤ rb.recv_length)
    (hhi : rb.recv_length < 2 ^ 31) :
    ReadsInside c rb ↔
      ((LEN_PKT_NOMAC : Int) ≤ rb.recv_length ∨ rb.recv_length % 4 ≠ 0) ∧
      ∀ f, Loop.Heads (extenTurn c rb) (frameStart rb) f → ¬ShortNamed c rb f := by
  constructor
  · intro h
    constructor
    · by_contra hshort
      simp only [not_or, not_le, ne_eq, not_not] at hshort
      exact not_readsInside_of_short hlo hshort.1 hshort.2 h
    · intro f hf hs
      exact not_readsInside_of_shortNamed hf hs h
  · rintro ⟨hlong, hfields⟩ f hf
    have hframed := framed_of_heads hf
    have hname : ∀ i ∈ nameReads c rb f, i < f.authlen + declaredLen rb f.authlen := by
      intro i hi
      obtain ⟨hat, hfit, hask, hmax, hbound, hstart, hend⟩ := mem_nameReads hi
      by_cases hlen : declaredLen rb f.authlen < 20
      · exact absurd ⟨hat, hfit, hask, hlen, by omega, hmax⟩ (hfields f hf)
      · have hsize : (sizeT ((declaredLen rb f.authlen : Int) - 20) : Int) =
            declaredLen rb f.authlen - 20 := by
          have := hfit.len.2.2
          simp only [sizeT]
          omega
        omega
    refine ⟨?_, hname⟩
    by_cases hheader : (LEN_PKT_NOMAC : Int) ≤ rb.recv_length
    · exact turn_inside hhi hheader hframed hname
    · -- An odd length is rejected before anything is read.
      have hodd : f.has_mac % 4 ≠ 0 ∨ sizeT f.has_mac < MIN_MAC_LEN := by
        have htotal := hframed.total
        have halign := hframed.aligned.1
        omega
      intro i hi
      rw [turnReads, if_pos hodd, ite_self] at hi
      cases hi

theorem parse_reads_inside_iff_fieldPacket :
    (LEN_PKT_NOMAC : Int) ≤ fieldPacket.recv_length ∧ (ReadsInside defaultCfg fieldPacket ↔
      ((LEN_PKT_NOMAC : Int) ≤ fieldPacket.recv_length ∨ fieldPacket.recv_length % 4 ≠ 0) ∧
      ∀ f, Loop.Heads (extenTurn defaultCfg fieldPacket) (frameStart fieldPacket) f →
        ¬ShortNamed defaultCfg fieldPacket f) :=
  ⟨by decide, parse_reads_inside_iff defaultCfg fieldPacket (by decide) (by decide)⟩

/-- A datagram of eleven words. -/
def shortPacket : RecvBuf where
  recv_length := 44

/-- A datagram with a request for an association that declares four octets
    and a name of two hundred. -/
def namedPacket : RecvBuf where
  recv_length := 76
  exten := [0x02010004, 0, 0, 0, 200, 0, 0]

/-- A server with a group name. -/
def groupCfg : Cfg ℚ := { defaultCfg with sys_groupname := some [0x67] }

/-- The word at 48 of a datagram of 44 octets is read, and of a datagram of
    76 octets the two hundred octets from 68 on are copied. -/
theorem parse_reads_outside :
    (48 ∈ turnReads defaultCfg shortPacket (frameStart shortPacket) ∧
      ¬ReadsInside defaultCfg shortPacket) ∧
    (267 ∈ nameReads groupCfg namedPacket (frameStart namedPacket) ∧
      ¬ReadsInside groupCfg namedPacket) := by
  refine ⟨⟨by decide, ?_⟩, by decide, ?_⟩
  · intro h
    have hin := (h (frameStart shortPacket) .enter).1 48 (by decide)
    exact absurd hin (by decide)
  · intro h
    have hin := (h (frameStart namedPacket) .enter).2 267 (by decide)
    exact absurd hin (by decide)

end NtpSuite
