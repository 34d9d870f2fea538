import NtpSuite.Theory.NtpqBuffers
import NtpSuite.Theory.NtpqReassembly

/-!
# Variables there and back

The variables that the server puts into a response are those that the client reads.

The text of a response is the items with a separator between them, wherever the packets
begin and end, and perhaps a new line at the end. A separator begins with a comma, which
ends a name and a value that is not quoted, and the rest of it is white space, which is
skipped before the next name. So what is left when a variable was read is white space
and the text of the next variable, or white space only.

## Main definitions

* `PutVar`: What is given to `ctl_putstr` and `ctl_putunqstr`.
* `PutVar.Ok`: The variables that survive.
* `readVars`: The loop over `nextvar`.
* `Listed`: The text behind a variable.

## Theorems

* `nextvar_text`: One variable.
* `readVars_listed`: All variables of a text.
* `variables_survive`: The variables of a response.
-/

namespace NtpSuite.Ntpq

open Control
open Reading
open Storing
open Tiling List

/-- What is given to `ctl_putstr`, or to `ctl_putunqstr` if it is not quoted. -/
structure PutVar where
  quoted : Bool
  tag : CStr
  value : CStr
deriving DecidableEq, Repr

namespace PutVar

/-- The item. -/
def text (v : PutVar) : CStr :=
  if v.value = [] then v.tag
  else if v.quoted then v.tag ++ [EQUALS, QUOTE] ++ v.value ++ [QUOTE]
  else v.tag ++ [EQUALS] ++ v.value

/-- The variable that is to be read. -/
def var (v : PutVar) : Var :=
  ⟨v.tag, if v.value = [] then none
    else some (if v.quoted then QUOTE :: v.value ++ [QUOTE] else v.value)⟩

/-- The call. -/
def put (env : CtlEnv) (s : CtlSys) (v : PutVar) : CtlSys :=
  if v.quoted then ctlPutstr env v.tag v.value s else ctlPutunqstr env v.tag v.value s

/-- The tag is a short name without a comma, an equals sign, white space or a quote, the value has
    no quotes and, if it is not quoted, no comma or white space, and the item fits into a packet. -/
structure Ok (v : PutVar) : Prop where
  tag_ne : v.tag ≠ []
  tag_short : v.tag.length < MAXVARLEN
  tag_plain : ∀ c ∈ v.tag, c ≠ 0 ∧ c ≠ COMMA ∧ c ≠ EQUALS ∧ c ≠ QUOTE ∧ isspace c = false
  value_plain : ∀ c ∈ v.value, c ≠ QUOTE
  value_word : v.quoted = false → ∀ c ∈ v.value, c ≠ COMMA ∧ isspace c = false
  fits : v.text.length ≤ CTL_MAX_DATA_LEN - 3

instance (v : PutVar) : Decidable v.Ok :=
  decidable_of_iff (v.tag ≠ [] ∧ v.tag.length < MAXVARLEN ∧
      (∀ c ∈ v.tag, c ≠ 0 ∧ c ≠ COMMA ∧ c ≠ EQUALS ∧ c ≠ QUOTE ∧ isspace c = false) ∧
      (∀ c ∈ v.value, c ≠ QUOTE) ∧
      (v.quoted = false → ∀ c ∈ v.value, c ≠ COMMA ∧ isspace c = false) ∧
      v.text.length ≤ CTL_MAX_DATA_LEN - 3)
    ⟨fun h => ⟨h.1, h.2.1, h.2.2.1, h.2.2.2.1, h.2.2.2.2.1, h.2.2.2.2.2⟩,
      fun h => ⟨h.1, h.2, h.3, h.4, h.5, h.6⟩⟩

end PutVar

/-- The loop over the variables: what was found, and if the end was reported. -/
def readVars (beyond : BitVec 8) : Nat → CStr → Bufs → List Var × Bool
  | 0, _, _ => ([], false)
  | fuel + 1, data, b =>
    match nextvar beyond data b with
    | (_, none) => ([], true)
    | (b, some (v, rest)) =>
      let r := readVars beyond fuel rest b
      (v :: r.1, r.2)

/-! ### One variable -/

section One

variable {v : PutVar} {lead rest : CStr} {beyond : BitVec 8} {b : Bufs}

theorem trimEnd_eq {l : CStr} (h : ∀ c ∈ l.getLast?, isspace c = false) : trimEnd l = l := by
  unfold trimEnd
  rw [rdropWhile_eq_self_iff]
  intro hl hspace
  have hlast := h (l.getLast hl) (List.getLast?_eq_getLast_of_ne_nil hl)
  rw [hlast] at hspace
  cases hspace

/-- Nothing follows a value, or a comma, or a new line. -/
def Closes (rest : CStr) : Prop := ∀ c ∈ rest.head?, c = COMMA ∨ c = CR

/-- What is left behind a variable: a comma was skipped, and perhaps the first octet of a
    new line. -/
def Left (rest rest' : CStr) : Prop :=
  rest' = rest.drop 1 ∨ rest.head? ≠ some COMMA ∧ rest' = rest

theorem left_value (rest : CStr) :
    Left rest (if rest.head? = some COMMA then rest.drop 1 else rest) := by
  split_ifs with h
  · exact .inl rfl
  · exact .inr ⟨h, rfl⟩

theorem nextvar_named (hok : v.Ok) (hlead : ∀ c ∈ lead, c = COMMA ∨ isspace c = true)
    (hrest : ∀ c ∈ rest.head?, endsName c = true) :
    (nextvar beyond (lead ++ (v.tag ++ rest)) b).2 =
      match rest with
      | [] => some (⟨v.tag, none⟩, [])
      | c :: cp =>
        if c = COMMA ∨ c = CR ∨ c = LF then some (⟨v.tag, none⟩, cp)
        else (nextvalue beyond v.tag cp (b.putName v.tag)).2 := by
  obtain ⟨x, tag, htag⟩ := exists_cons_of_ne_nil hok.tag_ne
  have hskip : (lead ++ (v.tag ++ rest)).dropWhile (fun c => decide (c = COMMA ∨ isspace c)) =
      v.tag ++ rest := by
    apply (takeWhile_append_stop _ _).2
    · intro c hc
      simpa using hlead c hc
    · intro c hc
      rw [htag, cons_append, List.head?_cons, Option.mem_some_iff] at hc
      obtain ⟨-, hcomma, -, -, hspace⟩ := hok.tag_plain c (by rw [htag, hc]; simp)
      simp [hcomma, hspace]
  have hname : ∀ c ∈ v.tag, (decide ¬ endsName c = true) = true := by
    intro c hc
    obtain ⟨hnul, hcomma, hequals, -, hspace⟩ := hok.tag_plain c hc
    have hcr : c ≠ CR := by
      rintro rfl
      exact absurd hspace (by decide)
    have hlf : c ≠ LF := by
      rintro rfl
      exact absurd hspace (by decide)
    have hnul' : ¬ c = 0#8 := hnul
    simp [endsName, hnul', hcomma, hequals, hcr, hlf]
  obtain ⟨htake, hdrop⟩ := takeWhile_append_stop (k := rest) hname fun c hc => by
    simp [hrest c hc]
  have htrim : trimEnd v.tag = v.tag := trimEnd_eq fun c hc =>
    (hok.tag_plain c (mem_of_getLast? hc)).2.2.2.2
  have hne : v.tag ++ rest ≠ [] := by simp [hok.tag_ne]
  unfold nextvar
  simp only [hskip, if_neg hne, htake, hdrop, htrim]
  cases rest with
  | nil => rfl
  | cons c cp =>
    simp only
    split_ifs <;> rfl

theorem nextvalue_quoted {name value : CStr} (hvalue : ∀ c ∈ value, c ≠ QUOTE)
    (hlen : value.length + 2 < MAXVALLEN) (hrest : Closes rest) :
    (nextvalue beyond name (QUOTE :: (value ++ QUOTE :: rest)) b).2 =
      some (⟨name, some (QUOTE :: value ++ [QUOTE])⟩,
        if rest.head? = some COMMA then rest.drop 1 else rest) := by
  have hskip : (QUOTE :: (value ++ QUOTE :: rest)).dropWhile
      (fun c => decide (isspace c ∧ c ≠ CR ∧ c ≠ LF)) = QUOTE :: (value ++ QUOTE :: rest) := by
    rw [dropWhile_cons]
    exact if_neg (by decide)
  obtain ⟨htake, hdrop⟩ := takeWhile_append_stop (p := fun c => decide (c ≠ QUOTE))
    (l := value) (k := QUOTE :: rest) (by simpa using hvalue) (by simp)
  have htrim : trimEnd (QUOTE :: value ++ [QUOTE]) = QUOTE :: value ++ [QUOTE] := by
    apply trimEnd_eq
    intro c hc
    rw [List.getLast?_append_of_ne_nil _ (by simp)] at hc
    cases hc
    decide
  have hclose : ¬ ((QUOTE :: value ++ [QUOTE]).length ≥ MAXVALLEN ∨
      rest ≠ [] ∧ rest.head? ≠ some COMMA ∧ rest.head? ≠ some CR) := by
    rintro (hlong | ⟨hne, hcomma, hcr⟩)
    · simp at hlong
      omega
    · obtain ⟨c, cp, rfl⟩ := exists_cons_of_ne_nil hne
      rcases hrest c rfl with rfl | rfl
      · exact hcomma rfl
      · exact hcr rfl
  unfold nextvalue
  simp only [hskip]
  unfold spanValue
  simp only [headD_cons, if_true, htake, hdrop, take_succ_cons, take_zero,
    drop_succ_cons, drop_zero]
  rw [if_neg hclose, htrim]

theorem nextvalue_word {name value : CStr} (hne : value ≠ [])
    (hvalue : ∀ c ∈ value, c ≠ QUOTE ∧ c ≠ COMMA ∧ isspace c = false)
    (hlen : value.length < MAXVALLEN) (hrest : Closes rest) :
    (nextvalue beyond name (value ++ rest) b).2 =
      some (⟨name, some value⟩, if rest.head? = some COMMA then rest.drop 1 else rest) := by
  obtain ⟨x, word, hword⟩ := exists_cons_of_ne_nil hne
  have hx := hvalue x (by rw [hword]; simp)
  have hskip : (value ++ rest).dropWhile (fun c => decide (isspace c ∧ c ≠ CR ∧ c ≠ LF)) =
      value ++ rest := by
    rw [hword, cons_append, dropWhile_cons]
    exact if_neg (by simp [hx.2.2])
  obtain ⟨htake, hdrop⟩ := takeWhile_append_stop (p := fun c => decide (c ≠ COMMA ∧ c ≠ CR))
    (l := value) (k := rest) (fun c hc => by
      obtain ⟨-, hcomma, hspace⟩ := hvalue c hc
      have hcr : c ≠ CR := by
        rintro rfl
        exact absurd hspace (by decide)
      simp [hcomma, hcr]) (fun c hc => by
      rcases hrest c hc with rfl | rfl <;> decide)
  have htrim : trimEnd value = value := trimEnd_eq fun c hc =>
    (hvalue c (mem_of_getLast? hc)).2.2
  have hclose : ¬ (value.length ≥ MAXVALLEN ∨
      rest ≠ [] ∧ rest.head? ≠ some COMMA ∧ rest.head? ≠ some CR) := by
    rintro (hlong | ⟨hne, hcomma, hcr⟩)
    · omega
    · obtain ⟨c, cp, rfl⟩ := exists_cons_of_ne_nil hne
      rcases hrest c rfl with rfl | rfl
      · exact hcomma rfl
      · exact hcr rfl
  have hhead : (value ++ rest).headD beyond ≠ QUOTE := by
    rw [hword]
    exact hx.1
  unfold nextvalue
  simp only [hskip]
  unfold spanValue
  rw [if_neg hhead, span_eq_takeWhile_dropWhile, htake, hdrop]
  simp only
  rw [if_neg hclose, htrim]

theorem nextvar_text (beyond : BitVec 8) (b : Bufs) (hok : v.Ok)
    (hlead : ∀ c ∈ lead, c = COMMA ∨ isspace c = true) (hrest : Closes rest) :
    ∃ rest', (nextvar beyond (lead ++ (v.text ++ rest)) b).2 = some (v.var, rest') ∧
      Left rest rest' := by
  have hlen := hok.fits
  unfold PutVar.text PutVar.var
  unfold PutVar.text CTL_MAX_DATA_LEN at hlen
  by_cases hvalue : v.value = []
  · -- The name is all there is.
    simp only [if_pos hvalue]
    rw [nextvar_named hok hlead fun c hc => by rcases hrest c hc with rfl | rfl <;> decide]
    cases rest with
    | nil => exact ⟨[], rfl, .inl rfl⟩
    | cons c cp =>
      refine ⟨cp, ?_, .inl rfl⟩
      rcases hrest c rfl with rfl | rfl <;> rfl
  · simp only [if_neg hvalue] at hlen ⊢
    by_cases hquoted : v.quoted = true
    · simp only [if_pos hquoted] at hlen ⊢
      refine ⟨_, ?_, left_value rest⟩
      have hshape : v.tag ++ [EQUALS, QUOTE] ++ v.value ++ [QUOTE] ++ rest =
          v.tag ++ (EQUALS :: QUOTE :: (v.value ++ QUOTE :: rest)) := by simp
      rw [hshape, nextvar_named hok hlead (by simp [endsName])]
      apply nextvalue_quoted hok.value_plain _ hrest
      simp only [length_append, length_cons, length_nil] at hlen
      unfold MAXVALLEN
      omega
    · simp only [if_neg hquoted] at hlen ⊢
      refine ⟨_, ?_, left_value rest⟩
      have hshape : v.tag ++ [EQUALS] ++ v.value ++ rest =
          v.tag ++ (EQUALS :: (v.value ++ rest)) := by simp
      rw [hshape, nextvar_named hok hlead (by simp [endsName])]
      apply nextvalue_word hvalue _ _ hrest
      · intro c hc
        exact ⟨hok.value_plain c hc, hok.value_word (by simpa using hquoted) c hc⟩
      · simp only [length_append, length_cons, length_nil] at hlen
        unfold MAXVALLEN
        omega

end One

/-! ### All variables -/

/-- The text behind a variable: the other variables, each behind a separator, and the end
    of the text. -/
inductive Listed : List PutVar → CStr → Prop
  | nil {trail : CStr} (htrail : trail = [] ∨ trail = [CR, LF]) : Listed [] trail
  | cons {v : PutVar} {vars : List PutVar} {sep rest : CStr} (hsep : sep ∈ separators)
      (h : Listed vars rest) : Listed (v :: vars) (sep ++ (v.text ++ rest))

section All

variable {vars : List PutVar} {v : PutVar} {beyond : BitVec 8}

theorem separators_spec {sep : CStr} (h : sep ∈ separators) :
    ∃ blank, sep = COMMA :: blank ∧ ∀ c ∈ blank, c = COMMA ∨ isspace c = true := by
  rcases mem_pair.mp h with rfl | rfl
  · exact ⟨[0x20], rfl, by decide⟩
  · exact ⟨[0x0d, 0x0a], rfl, by decide⟩

theorem Listed.closes {rest : CStr} (h : Listed vars rest) : Closes rest := by
  intro c hc
  cases h with
  | nil htrail =>
    rcases htrail with rfl | rfl
    · cases hc
    · cases hc
      exact .inr rfl
  | cons hsep _ =>
    obtain ⟨blank, rfl, -⟩ := separators_spec hsep
    cases hc
    exact .inl rfl

theorem readVars_none {data : CStr} {b : Bufs} {fuel : Nat}
    (h : (nextvar beyond data b).2 = none) : readVars beyond (fuel + 1) data b = ([], true) := by
  unfold readVars
  generalize nextvar beyond data b = r at h
  obtain ⟨b', out⟩ := r
  cases h
  rfl

theorem readVars_some {data rest : CStr} {b : Bufs} {fuel : Nat} {x : Var}
    (h : (nextvar beyond data b).2 = some (x, rest)) :
    readVars beyond (fuel + 1) data b =
      (x :: (readVars beyond fuel rest (nextvar beyond data b).1).1,
        (readVars beyond fuel rest (nextvar beyond data b).1).2) := by
  rw [readVars]
  generalize nextvar beyond data b = r at h
  obtain ⟨b', out⟩ := r
  cases h
  rfl

theorem nextvar_blank {data : CStr} {b : Bufs} (h : ∀ c ∈ data, c = COMMA ∨ isspace c = true) :
    (nextvar beyond data b).2 = none := by
  have hskip : data.dropWhile (fun c => decide (c = COMMA ∨ isspace c)) = [] := by
    simpa using h
  unfold nextvar
  simp only [hskip, if_true]

theorem readVars_listed {rest rest' : CStr} (h : Listed vars rest) (hok : ∀ v ∈ vars, v.Ok)
    (hleft : Left rest rest') (b : Bufs) :
    readVars beyond (vars.length + 1) rest' b = (vars.map PutVar.var, true) := by
  induction h generalizing rest' b with
  | nil htrail =>
    apply readVars_none
    apply nextvar_blank
    rcases htrail with rfl | rfl
    · rcases hleft with rfl | ⟨-, rfl⟩ <;> decide
    · rcases hleft with rfl | ⟨-, rfl⟩ <;> decide
  | @cons v vars sep rest hsep h ih =>
    obtain ⟨blank, rfl, hblank⟩ := separators_spec hsep
    obtain ⟨hv, hvars⟩ := forall_mem_cons.mp hok
    have hrest' : rest' = blank ++ (v.text ++ rest) := by
      rcases hleft with hdrop | ⟨hnot, -⟩
      · exact hdrop
      · exact absurd rfl hnot
    obtain ⟨rest'', hfound, hleft'⟩ := nextvar_text beyond b hv hblank h.closes
    rw [hrest', length_cons, readVars_some hfound, ih hvars hleft']
    rfl

/-- The items behind a text are the variables behind a variable. -/
theorem listed_of_joined {text text' trail : CStr} (hne : text ≠ [])
    (h : Joined text (vars.map PutVar.text) text') (htrail : trail = [] ∨ trail = [CR, LF]) :
    ∃ rest, text' ++ trail = text ++ rest ∧ Listed vars rest := by
  induction vars generalizing text with
  | nil =>
    cases h
    exact ⟨trail, rfl, .nil htrail⟩
  | cons v vars ih =>
    cases h with
    | cons hfirst hnext h =>
      obtain ⟨rest, hrest, hlisted⟩ := ih (by simp [hne]) h
      exact ⟨_, by rw [hrest]; simp, .cons (hnext hne) hlisted⟩

theorem readVars_joined {text trail : CStr} (hok : ∀ v ∈ vars, v.Ok)
    (h : Joined [] (vars.map PutVar.text) text) (htrail : trail = [] ∨ trail = [CR, LF])
    (b : Bufs) :
    readVars beyond (vars.length + 1) (text ++ trail) b = (vars.map PutVar.var, true) := by
  cases vars with
  | nil =>
    cases h
    have hleft : Left trail trail :=
      .inr ⟨by rcases htrail with rfl | rfl <;> decide, rfl⟩
    exact readVars_listed (.nil htrail) hok hleft b
  | cons v vars =>
    obtain ⟨hv, hvars⟩ := forall_mem_cons.mp hok
    cases h with
    | cons hfirst hnext h =>
      rw [hfirst rfl] at h
      have hne : v.text ≠ [] := by
        unfold PutVar.text
        split_ifs <;> simp [hv.tag_ne]
      obtain ⟨rest, hrest, hlisted⟩ := listed_of_joined hne h htrail
      have hnil : ∀ c ∈ ([] : CStr), c = COMMA ∨ isspace c = true := nofun
      obtain ⟨rest', hfound, hleft⟩ := nextvar_text beyond b hv hnil hlisted.closes
      rw [hrest, length_cons, ← nil_append (v.text ++ rest), readVars_some hfound,
        readVars_listed hlisted hvars hleft]
      rfl

end All

/-! ### The variables of a response -/

/-- The variables are put into a response, which is sent. -/
def respondVars (env : CtlEnv) (vars : List PutVar) (s : CtlSys) : CtlSys :=
  ctlFlushpkt env false (vars.foldl (PutVar.put env) s)

/-- The packets that are sent. -/
def varPackets (env : CtlEnv) (vars : List PutVar) (s : CtlSys) : List CStr :=
  (respondVars env vars s).sent.drop s.sent.length

theorem put_eq_putdata {env : CtlEnv} {v : PutVar} (hok : v.Ok) (s : CtlSys) :
    v.put env s = ctlPutdata env v.text false s := by
  have hlen := hok.fits
  unfold CTL_MAX_DATA_LEN at hlen
  unfold PutVar.put PutVar.text ctlPutstr ctlPutunqstr putTagged
  unfold PutVar.text at hlen
  by_cases hvalue : v.value = []
  · simp [hvalue]
  · have hpos : v.value.length > 0 := length_pos_iff.mpr hvalue
    simp only [if_neg hvalue] at hlen ⊢
    rw [if_pos hpos, if_pos hpos]
    by_cases hquoted : v.quoted = true
    · simp only [if_pos hquoted] at hlen ⊢
      simp only [length_append, length_cons, length_nil] at hlen ⊢
      rw [if_pos (by omega)]
      rfl
    · simp only [if_neg hquoted] at hlen ⊢
      simp only [length_append, length_cons, length_nil] at hlen ⊢
      rw [if_pos (by omega), append_nil]
      rfl

/-- The item of a variable. -/
def PutVar.item (v : PutVar) : Item := ⟨v.text, false⟩

theorem varPackets_eq {env : CtlEnv} {vars : List PutVar} (hok : ∀ v ∈ vars, v.Ok) (s : CtlSys) :
    varPackets env vars s = packets env (vars.map PutVar.item) s := by
  have hfold : ∀ s, vars.foldl (PutVar.put env) s = putItems env (vars.map PutVar.item) s := by
    induction vars with
    | nil => exact fun s => rfl
    | cons v vars ih =>
      intro s
      obtain ⟨hv, hvars⟩ := forall_mem_cons.mp hok
      rw [foldl_cons, put_eq_putdata hv, ih hvars]
      rfl
  unfold varPackets respondVars packets respond
  rw [hfold]

/-- For every list of variables: from the packets of the response, which arrive in any
    order, the client reads these variables and then the end. -/
theorem variables_survive {autokey : Bool} (env : CtlEnv)
    (hmac : ∀ keyid pkt, (env.authencrypt keyid pkt).1 % 4 = 0) (rb : CtlRecv autokey)
    (s0 s : CtlSys) (op : CtlOp) (hcall : processControl env rb s0 = (s, some op))
    (vars : List PutVar) (hvars : ∀ v ∈ vars, v.Ok)
    (hfits : (varPackets env vars s).length ≤ MAXFRAGS) (pktdata : Memory) (ds : List Datagram)
    (hds : ∀ d ∈ ds, (∃ p ∈ varPackets env vars s, d.Carries p) ∨ Foreign (queryFor rb) d)
    (hall : ∀ p ∈ varPackets env vars s, ∃ d ∈ ds, d.Carries p) (beyond : BitVec 8) (b : Bufs) :
    let g := received (queryFor rb) pktdata ds
    g.result = some .okay ∧
      readVars beyond (vars.length + 1) (octetsAt g.pktdata 0 g.rsize) b =
        (vars.map PutVar.var, true) := by
  intro g
  rw [varPackets_eq hvars] at hfits hds hall
  have hitems : ∀ item ∈ vars.map PutVar.item,
      item.dp ≠ [] ∧ item.dp.length ≤ CTL_MAX_DATA_LEN - 3 := by
    intro item hitem
    obtain ⟨v, hv, rfl⟩ := mem_map.mp hitem
    refine ⟨?_, (hvars v hv).fits⟩
    change v.text ≠ []
    unfold PutVar.text
    split_ifs <;> simp [(hvars v hv).tag_ne]
  obtain ⟨cs, ht, htotal, -, htext⟩ := respond_takes hmac hcall hitems hfits
  obtain ⟨text, trail, hjoined, hflat, htrail⟩ := htext fun item hitem => by
    obtain ⟨v, -, rfl⟩ := mem_map.mp hitem
    rfl
  obtain ⟨taken, hmem, hwhole, -⟩ := received_held ht hfits htotal pktdata ds hds
  have hw : Whole cs g := hwhole fun i hi => by
    have hi' : i < (packets env (vars.map PutVar.item) s).length := ht.series.1.symm ▸ hi
    exact (hmem i hi').mpr (hall _ (getElem_mem hi'))
  have hmap : (vars.map PutVar.item).map Item.dp = vars.map PutVar.text := by
    rw [map_map]
    rfl
  rw [hmap] at hjoined
  refine ⟨hw.okay, ?_⟩
  rw [hw.size, hw.stands.octetsAt_eq, hflat]
  exact readVars_joined hvars hjoined htrail b

/-- A quoted value with a comma and blanks, a word, and a name without a value. -/
def someVars : List PutVar :=
  [⟨true, Control.octets "version", Control.octets "ntpd 4.2, built today"⟩,
    ⟨false, Control.octets "leap", Control.octets "00"⟩, ⟨true, Control.octets "refid", []⟩]

/-- The packets of the response in the wrong order. -/
theorem variables_survive_reversed :
    let g := received (queryFor (plainRequest 2)) (fun _ => 0)
      ((varPackets md5Env someVars readvarSys).reverse.map datagramFor)
    readVars 0 4 (octetsAt g.pktdata 0 g.rsize)
      (Bufs.fresh (fun _ => 0) (fun _ => 0) (fun _ => 0) (fun _ => 0)) =
        (someVars.map PutVar.var, true) := by
  refine (variables_survive md5Env md5Env_padded (plainRequest 2) (ctlStart (fun _ => 0) [])
    readvarSys .readvar (Prod.ext rfl (by decide +kernel)) someVars (by decide +kernel)
    (by decide +kernel) (fun _ => 0) _ ?_ ?_ 0 _).2
  · intro d hd
    obtain ⟨p, hp, rfl⟩ := mem_map.mp hd
    exact .inl ⟨p, mem_reverse.mp hp, datagramFor_carries p⟩
  · intro p hp
    exact ⟨datagramFor p, mem_map.mpr ⟨p, mem_reverse.mpr hp, rfl⟩, datagramFor_carries p⟩

end NtpSuite.Ntpq
