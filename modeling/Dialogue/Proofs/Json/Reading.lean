import Dialogue.Proofs.Json.Grammar

namespace Dialogue.Json

theorem readValue_skipBlank (fuel : Nat) (cs : List Char) :
    readValue fuel (skipBlank cs) = readValue fuel cs := by
  cases fuel with
  | zero => rfl
  | succ fuel => rw [readValue, skipBlank_skipBlank, ← readValue]

theorem readValue_append_gap {gap : List Char} (hgap : Blank gap) (fuel : Nat) (cs : List Char) :
    readValue fuel (gap ++ cs) = readValue fuel cs := by
  rw [← readValue_skipBlank, skipBlank_append hgap, readValue_skipBlank]

/-- Reads a key, a colon and a value. -/
def readMember (fuel : Nat) (cs : List Char) : Option ((List Char × Value) × List Char) :=
  match skipBlank cs with
  | '"' :: rest => do
    let (key, rest) ← readString rest
    match skipBlank rest with
    | ':' :: rest => (readValue fuel rest).map fun (v, rest) => ((key, v), rest)
    | _ => none
  | _ => none

theorem readMember_skipBlank (fuel : Nat) (cs : List Char) :
    readMember fuel (skipBlank cs) = readMember fuel cs := by
  rw [readMember, skipBlank_skipBlank, ← readMember]

/-- Goes on after an item or a member: a comma and more of them, or the closing character. -/
def readSeries {α : Type} (close : Char) (more : List Char → Option (List α × List Char)) (a : α)
    (cs : List Char) : Option (List α × List Char) :=
  match skipBlank cs with
  | [] => none
  | c :: rest =>
    if c = ',' then (more rest).map fun (as, rest) => (a :: as, rest)
    else if c = close then some ([a], rest)
    else none

theorem readSeries_last {α : Type} {close : Char} (hblank : isBlank close = false)
    (hcomma : close ≠ ',') {gap : List Char} (hgap : Blank gap)
    (more : List Char → Option (List α × List Char)) (a : α) (rest : List Char) :
    readSeries close more a (gap ++ close :: rest) = some ([a], rest) := by
  rw [readSeries, skipBlank_append hgap, skipBlank_cons hblank]
  simp [hcomma]

theorem readSeries_next {α : Type} (close : Char) {gap : List Char} (hgap : Blank gap)
    (more : List Char → Option (List α × List Char)) (a : α) (rest : List Char) :
    readSeries close more a (gap ++ ',' :: rest) =
      (more rest).map fun (as, rest) => (a :: as, rest) := by
  rw [readSeries, skipBlank_append hgap, skipBlank_cons rfl]
  rfl

theorem readSeries_eq_some {α : Type} {close : Char}
    {more : List Char → Option (List α × List Char)} {a : α} {as : List α} {cs rest : List Char}
    (h : readSeries close more a cs = some (as, rest)) :
    ∃ gap, Blank gap ∧
      (as = [a] ∧ cs = gap ++ close :: rest ∨
        ∃ next as', as = a :: as' ∧ cs = gap ++ ',' :: next ∧ more next = some (as', rest)) := by
  obtain ⟨gap, hgap, hcs⟩ := exists_gap cs
  refine ⟨gap, hgap, ?_⟩
  rw [readSeries] at h
  split at h
  · cases h
  · rename_i c next hnext
    rw [hcs, hnext]
    split_ifs at h with hcomma hclose
    · obtain ⟨⟨as', rest⟩, has, hfound⟩ := Option.map_eq_some_iff.mp h
      cases hfound
      exact .inr ⟨next, as', rfl, by rw [hcomma], has⟩
    · cases h
      exact .inl ⟨rfl, by rw [hclose]⟩

theorem readItems_succ (fuel : Nat) (cs : List Char) :
    readItems (fuel + 1) cs =
      (readValue fuel cs).bind fun (v, rest) => readSeries ']' (readItems fuel) v rest := by
  rw [readItems]
  refine congrArg (Option.bind _) (funext ?_)
  rintro ⟨v, rest⟩
  cases hrest : skipBlank rest with
  | nil => simp [readSeries, hrest]
  | cons c rest =>
      simp only [readSeries, hrest]
      split <;> simp_all

theorem readMembers_succ (fuel : Nat) (cs : List Char) :
    readMembers (fuel + 1) cs =
      (readMember fuel cs).bind fun (m, rest) => readSeries '}' (readMembers fuel) m rest := by
  rw [readMembers]
  cases hcs : skipBlank cs with
  | nil => simp only [readMember, hcs, Option.bind_none]
  | cons c rest =>
      by_cases hquote : c = '"'
      · subst hquote
        simp only [readMember, hcs, bind, Option.bind_assoc]
        refine congrArg (Option.bind _) (funext ?_)
        rintro ⟨key, rest⟩
        simp only
        cases hrest : skipBlank rest with
        | nil => rfl
        | cons c rest =>
            by_cases hcolon : c = ':'
            · subst hcolon
              simp only [Option.bind_map]
              refine congrArg (Option.bind _) (funext ?_)
              rintro ⟨v, rest⟩
              cases hrest : skipBlank rest with
              | nil => simp [readSeries, hrest]
              | cons c rest =>
                  simp only [readSeries, Function.comp_apply, hrest]
                  split <;> simp_all
            · simp [hcolon]
      · simp [readMember, hcs, hquote]

theorem readItems_skipBlank (fuel : Nat) (cs : List Char) :
    readItems fuel (skipBlank cs) = readItems fuel cs := by
  cases fuel with
  | zero => rfl
  | succ fuel => rw [readItems_succ, readValue_skipBlank, ← readItems_succ]

theorem readMembers_skipBlank (fuel : Nat) (cs : List Char) :
    readMembers fuel (skipBlank cs) = readMembers fuel cs := by
  cases fuel with
  | zero => rfl
  | succ fuel => rw [readMembers_succ, readMember_skipBlank, ← readMembers_succ]

theorem readValue_array {fuel : Nat} {cs : List Char}
    (h : ∀ rest, skipBlank cs ≠ ']' :: rest) :
    readValue (fuel + 1) ('[' :: cs) =
      (readItems fuel cs).map fun (vs, rest) => (.array vs, rest) := by
  rw [readValue, skipBlank_cons rfl, ← readItems_skipBlank fuel cs]
  simp only

theorem readValue_object {fuel : Nat} {cs : List Char}
    (h : ∀ rest, skipBlank cs ≠ '}' :: rest) :
    readValue (fuel + 1) ('{' :: cs) =
      (readMembers fuel cs).map fun (ms, rest) => (.object ms, rest) := by
  rw [readValue, skipBlank_cons rfl, ← readMembers_skipBlank fuel cs]
  simp only

theorem readValue_string {s : List Char} (hs : Escaped s) (fuel : Nat) (rest : List Char) :
    readValue (fuel + 1) ('"' :: (s ++ '"' :: rest)) = some (.string s, rest) := by
  rw [readValue, skipBlank_cons rfl]
  simp only [readString_of_escaped hs, Option.map_some]

theorem readValue_emptyArray {gap : List Char} (hgap : Blank gap) (fuel : Nat) (rest : List Char) :
    readValue (fuel + 1) ('[' :: (gap ++ ']' :: rest)) = some (.array [], rest) := by
  rw [readValue, skipBlank_cons rfl]
  simp only [skipBlank_append hgap, skipBlank_cons (c := ']') rfl]

theorem readValue_emptyObject {gap : List Char} (hgap : Blank gap) (fuel : Nat) (rest : List Char) :
    readValue (fuel + 1) ('{' :: (gap ++ '}' :: rest)) = some (.object [], rest) := by
  rw [readValue, skipBlank_cons rfl]
  simp only [skipBlank_append hgap, skipBlank_cons (c := '}') rfl]

theorem readMember_append {fuel : Nat} {key gap gap' cs rest : List Char} {v : Value}
    (hgap : Blank gap) (hkey : Escaped key) (hgap' : Blank gap')
    (hread : readValue fuel cs = some (v, rest)) :
    readMember fuel (gap ++ '"' :: (key ++ '"' :: (gap' ++ ':' :: cs))) =
      some ((key, v), rest) := by
  rw [readMember, skipBlank_append hgap, skipBlank_cons rfl]
  simp only [readString_of_escaped hkey, bind, Option.bind_some, skipBlank_append hgap',
    skipBlank_cons (c := ':') rfl, hread, Option.map_some]

theorem readItems_last {fuel : Nat} {cs gap rest : List Char} {v : Value} (hgap : Blank gap)
    (hread : readValue fuel cs = some (v, gap ++ ']' :: rest)) :
    readItems (fuel + 1) cs = some ([v], rest) := by
  rw [readItems_succ, hread]
  exact readSeries_last rfl (by decide) hgap _ v rest

theorem readItems_next {fuel : Nat} {cs gap next rest : List Char} {v : Value} {vs : List Value}
    (hgap : Blank gap) (hread : readValue fuel cs = some (v, gap ++ ',' :: next))
    (hvs : readItems fuel next = some (vs, rest)) :
    readItems (fuel + 1) cs = some (v :: vs, rest) := by
  rw [readItems_succ, hread]
  refine (readSeries_next _ hgap _ v next).trans ?_
  rw [hvs]
  rfl

theorem readMembers_last {fuel : Nat} {cs gap rest : List Char} {m : List Char × Value}
    (hgap : Blank gap) (hread : readMember fuel cs = some (m, gap ++ '}' :: rest)) :
    readMembers (fuel + 1) cs = some ([m], rest) := by
  rw [readMembers_succ, hread]
  exact readSeries_last rfl (by decide) hgap _ m rest

theorem readMembers_next {fuel : Nat} {cs gap next rest : List Char} {m : List Char × Value}
    {ms : List (List Char × Value)} (hgap : Blank gap)
    (hread : readMember fuel cs = some (m, gap ++ ',' :: next))
    (hms : readMembers fuel next = some (ms, rest)) :
    readMembers (fuel + 1) cs = some (m :: ms, rest) := by
  rw [readMembers_succ, hread]
  refine (readSeries_next _ hgap _ m next).trans ?_
  rw [hms]
  rfl

theorem readValue_bracket (fuel : Nat) (cs : List Char) : readValue fuel (']' :: cs) = none := by
  cases fuel with
  | zero => rfl
  | succ fuel => rfl

theorem skipBlank_ne_bracket {fuel : Nat} {cs : List Char} {found : Value × List Char}
    (h : readValue fuel cs = some found) (rest : List Char) : skipBlank cs ≠ ']' :: rest := by
  intro hcs
  rw [← readValue_skipBlank, hcs, readValue_bracket] at h
  cases h

theorem skipBlank_ne_brace {fuel : Nat} {cs : List Char} {found : (List Char × Value) × List Char}
    (h : readMember fuel cs = some found) (rest : List Char) : skipBlank cs ≠ '}' :: rest := by
  intro hcs
  rw [readMember, hcs] at h
  cases h

theorem readWord_of_ne {c : Char} (hn : c ≠ 'n') (ht : c ≠ 't') (hf : c ≠ 'f') (cs : List Char) :
    readWord (c :: cs) = (readNumber (c :: cs)).map fun (l, rest) => (.number l, rest) := by
  rw [readWord.eq_def]
  split
  · simp_all
  · simp_all
  · simp_all
  · rfl

theorem readValue_of_ne {c : Char} (hquote : c ≠ '"') (hbracket : c ≠ '[') (hbrace : c ≠ '{')
    (hblank : isBlank c = false) (fuel : Nat) (cs : List Char) :
    readValue (fuel + 1) (c :: cs) = readWord (c :: cs) := by
  rw [readValue, skipBlank_cons hblank]
  split
  · simp_all
  · simp_all
  · simp_all
  · rfl

theorem readValue_of_spellsNumber {l : Literal} {text : List Char} (h : SpellsNumber l text)
    (fuel : Nat) {rest : List Char} (hrest : StopsNumber rest) :
    readValue (fuel + 1) (text ++ rest) = some (.number l, rest) := by
  have hread := readNumber_append h hrest
  obtain ⟨c, cs, rfl, hc⟩ := h.exists_cons
  have hne (other : Char) (hother : opensNumber other = false) : c ≠ other :=
    ne_of_opensNumber hc hother
  have hblank : isBlank c = false := by
    simp [isBlank, hne ' ' rfl, hne '\n' rfl, hne '\t' rfl, hne '\r' rfl]
  rw [List.cons_append, readValue_of_ne (hne _ rfl) (hne _ rfl) (hne _ rfl) hblank,
    readWord_of_ne (hne _ rfl) (hne _ rfl) (hne _ rfl), ← List.cons_append, hread]
  rfl

/-- What a reader answers for the text of a part, whatever follows it. -/
def Reads (fuel : Nat) (rest : List Char) : Phrase → List Char → Prop
  | .value v, text => StopsNumber rest → readValue fuel (text ++ rest) = some (v, rest)
  | .member m, text => StopsNumber rest → readMember fuel (text ++ rest) = some (m, rest)
  | .items vs, text => ∀ v cs, readValue fuel cs = some (v, text ++ rest) →
      readItems (fuel + 1) cs = some (v :: vs, rest)
  | .members ms, text => ∀ m cs, readMember fuel cs = some (m, text ++ rest) →
      readMembers (fuel + 1) cs = some (m :: ms, rest)

theorem stopsNumber_append_gap {gap cs : List Char} (hgap : Blank gap) (hcs : StopsNumber cs) :
    StopsNumber (gap ++ cs) := by
  cases gap with
  | nil => exact hcs
  | cons blank gap =>
      rintro c ⟨⟩
      have hblank := hgap blank List.mem_cons_self
      simp only [isBlank, Bool.or_eq_true, decide_eq_true_eq] at hblank
      rcases hblank with ((rfl | rfl) | rfl) | rfl <;> decide

theorem Spells.stopsNumber {phrase : Phrase} {text : List Char} (h : Spells phrase text)
    (hphrase : (∃ vs, phrase = .items vs) ∨ ∃ ms, phrase = .members ms) (rest : List Char) :
    StopsNumber (text ++ rest) := by
  cases h with
  | lastItem hgap | nextItem hgap | lastMember hgap | nextMember hgap =>
      rw [List.append_assoc]
      exact stopsNumber_append_gap hgap (by rintro c ⟨⟩; decide)
  | _ => simp at hphrase

/-- Every level of nesting and every item takes a character, so that twice the length is enough. -/
theorem reads_of_spells {phrase : Phrase} {text : List Char} (h : Spells phrase text) (fuel : Nat)
    (hfuel : 2 * text.length ≤ fuel) (rest : List Char) : Reads fuel rest phrase text := by
  induction h generalizing fuel rest with
  | padded hgap _ ih =>
      intro hrest
      simp only [List.length_append] at hfuel
      rw [List.append_assoc, readValue_append_gap hgap]
      exact ih fuel (by omega) rest hrest
  | null | true | false =>
      intro _
      simp only [List.length_cons] at hfuel
      obtain ⟨fuel, rfl⟩ : ∃ f, fuel = f + 1 := ⟨fuel - 1, by omega⟩
      rfl
  | number hl =>
      intro hrest
      obtain ⟨c, cs, rfl, -⟩ := hl.exists_cons
      simp only [List.length_cons] at hfuel
      obtain ⟨fuel, rfl⟩ : ∃ f, fuel = f + 1 := ⟨fuel - 1, by omega⟩
      exact readValue_of_spellsNumber hl fuel hrest
  | string hs =>
      intro _
      simp only [List.length_cons] at hfuel
      obtain ⟨fuel, rfl⟩ : ∃ f, fuel = f + 1 := ⟨fuel - 1, by omega⟩
      rw [List.cons_append, List.append_assoc]
      exact readValue_string hs fuel rest
  | emptyArray hgap =>
      intro _
      simp only [List.length_cons] at hfuel
      obtain ⟨fuel, rfl⟩ : ∃ f, fuel = f + 1 := ⟨fuel - 1, by omega⟩
      rw [List.cons_append, List.append_assoc]
      exact readValue_emptyArray hgap fuel rest
  | array hv hvs ihv ihvs =>
      intro hrest
      simp only [List.length_cons, List.length_append] at hfuel
      obtain ⟨fuel, rfl⟩ : ∃ f, fuel = f + 2 := ⟨fuel - 2, by omega⟩
      have hread := ihv fuel (by omega) _ (hvs.stopsNumber (.inl ⟨_, rfl⟩) rest)
      have hitems := ihvs fuel (by omega) rest _ _ hread
      rw [List.cons_append, List.append_assoc, readValue_array (skipBlank_ne_bracket hread), hitems]
      rfl
  | emptyObject hgap =>
      intro _
      simp only [List.length_cons] at hfuel
      obtain ⟨fuel, rfl⟩ : ∃ f, fuel = f + 1 := ⟨fuel - 1, by omega⟩
      rw [List.cons_append, List.append_assoc]
      exact readValue_emptyObject hgap fuel rest
  | object hm hms ihm ihms =>
      intro hrest
      simp only [List.length_cons, List.length_append] at hfuel
      obtain ⟨fuel, rfl⟩ : ∃ f, fuel = f + 2 := ⟨fuel - 2, by omega⟩
      have hread := ihm fuel (by omega) _ (hms.stopsNumber (.inr ⟨_, rfl⟩) rest)
      have hmembers := ihms fuel (by omega) rest _ _ hread
      rw [List.cons_append, List.append_assoc, readValue_object (skipBlank_ne_brace hread),
        hmembers]
      rfl
  | member hgap hkey hgap' _ ih =>
      intro hrest
      simp only [List.length_cons, List.length_append] at hfuel
      have hread := ih fuel (by omega) rest hrest
      simpa only [List.append_assoc, List.cons_append] using readMember_append hgap hkey hgap' hread
  | lastItem hgap =>
      intro v cs hread
      rw [List.append_assoc] at hread
      exact readItems_last hgap hread
  | nextItem hgap _ hvs ihv ihvs =>
      intro v cs hread
      simp only [List.length_cons, List.length_append] at hfuel
      obtain ⟨fuel, rfl⟩ : ∃ f, fuel = f + 1 := ⟨fuel - 1, by omega⟩
      have hnext := ihv fuel (by omega) _ (hvs.stopsNumber (.inl ⟨_, rfl⟩) rest)
      rw [List.append_assoc, List.cons_append, List.append_assoc] at hread
      exact readItems_next hgap hread (ihvs fuel (by omega) rest _ _ hnext)
  | lastMember hgap =>
      intro m cs hread
      rw [List.append_assoc] at hread
      exact readMembers_last hgap hread
  | nextMember hgap _ hms ihm ihms =>
      intro m cs hread
      simp only [List.length_cons, List.length_append] at hfuel
      obtain ⟨fuel, rfl⟩ : ∃ f, fuel = f + 1 := ⟨fuel - 1, by omega⟩
      have hnext := ihm fuel (by omega) _ (hms.stopsNumber (.inr ⟨_, rfl⟩) rest)
      rw [List.append_assoc, List.cons_append, List.append_assoc] at hread
      exact readMembers_next hgap hread (ihms fuel (by omega) rest _ _ hnext)

theorem parse_of_spelled {text : String} {v : Value} (h : Spelled text v) :
    parse text = some v := by
  obtain ⟨cs, gap, htext, hspells, hgap⟩ := h
  have hstop : StopsNumber gap := by
    rw [← List.append_nil gap]
    exact stopsNumber_append_gap hgap (by simp [StopsNumber])
  have hread := reads_of_spells hspells (2 * (cs ++ gap).length + 1)
    (by simp only [List.length_append]; omega) gap hstop
  simp only [parse, htext, hread, (skipBlank_eq_nil_iff gap).mpr hgap, if_true]

theorem spells_of_readWord {cs rest : List Char} {v : Value} (h : readWord cs = some (v, rest)) :
    ∃ text, Spells (.value v) text ∧ cs = text ++ rest := by
  rw [readWord.eq_def] at h
  split at h
  · cases h
    exact ⟨_, .null, rfl⟩
  · cases h
    exact ⟨_, .true, rfl⟩
  · cases h
    exact ⟨_, .false, rfl⟩
  · obtain ⟨⟨l, rest⟩, hl, hread⟩ := Option.map_eq_some_iff.mp h
    cases hread
    obtain ⟨text, hspells, rfl⟩ := spellsNumber_of_readNumber hl
    exact ⟨text, .number hspells, rfl⟩

/-- Whatever is read is a text of what it is read as. -/
structure ReadsOnly (fuel : Nat) : Prop where
  value : ∀ cs v rest, readValue fuel cs = some (v, rest) →
    ∃ text, Spells (.value v) text ∧ cs = text ++ rest
  items : ∀ cs vs rest, readItems fuel cs = some (vs, rest) →
    ∃ v vs' text more, vs = v :: vs' ∧ Spells (.value v) text ∧ Spells (.items vs') more ∧
      cs = text ++ (more ++ rest)
  members : ∀ cs ms rest, readMembers fuel cs = some (ms, rest) →
    ∃ m ms' text more, ms = m :: ms' ∧ Spells (.member m) text ∧ Spells (.members ms') more ∧
      cs = text ++ (more ++ rest)

theorem ReadsOnly.member {fuel : Nat} (h : ReadsOnly fuel) {cs rest : List Char}
    {m : List Char × Value} (hread : readMember fuel cs = some (m, rest)) :
    ∃ text, Spells (.member m) text ∧ cs = text ++ rest := by
  obtain ⟨gap, hgap, hcs⟩ := exists_gap cs
  rw [readMember] at hread
  split at hread
  · rename_i hquote
    simp only [bind, Option.bind_eq_some_iff] at hread
    obtain ⟨⟨key, rest'⟩, hkey, hread⟩ := hread
    obtain ⟨gap', hgap', hrest'⟩ := exists_gap rest'
    obtain ⟨hescaped, rfl⟩ := escaped_of_readString hkey
    simp only at hread
    split at hread
    · rename_i hcolon
      obtain ⟨⟨v, rest⟩, hv, hm⟩ := Option.map_eq_some_iff.mp hread
      cases hm
      obtain ⟨text, hspells, rfl⟩ := h.value _ _ _ hv
      refine ⟨_, .member hgap hescaped hgap' hspells, ?_⟩
      rw [hcs, hquote, hrest', hcolon]
      simp only [List.append_assoc, List.cons_append]
    · cases hread
  · cases hread

theorem ReadsOnly.value_succ {fuel : Nat} (h : ReadsOnly fuel) {cs rest : List Char} {v : Value}
    (hread : readValue (fuel + 1) cs = some (v, rest)) :
    ∃ text, Spells (.value v) text ∧ cs = text ++ rest := by
  obtain ⟨gap, hgap, hcs⟩ := exists_gap cs
  -- What is read after the blanks is a text of the value, and so it is together with them.
  suffices hafter : ∃ text, Spells (.value v) text ∧ skipBlank cs = text ++ rest by
    obtain ⟨text, hspells, htext⟩ := hafter
    exact ⟨gap ++ text, .padded hgap hspells, by rw [List.append_assoc, ← htext, ← hcs]⟩
  rw [readValue] at hread
  split at hread
  · rename_i hquote
    obtain ⟨⟨s, rest⟩, hs, hv⟩ := Option.map_eq_some_iff.mp hread
    cases hv
    obtain ⟨hescaped, rfl⟩ := escaped_of_readString hs
    exact ⟨_, .string hescaped, by simp [hquote]⟩
  · rename_i rest' hbracket
    obtain ⟨gap', hgap', hrest'⟩ := exists_gap rest'
    split at hread
    · rename_i hclose
      cases hread
      exact ⟨_, .emptyArray hgap', by rw [hbracket, hrest', hclose]; simp⟩
    · obtain ⟨⟨vs, rest⟩, hvs, hv⟩ := Option.map_eq_some_iff.mp hread
      cases hv
      rw [readItems_skipBlank] at hvs
      obtain ⟨v, vs, text, more, rfl, hspells, hmore, rfl⟩ := h.items _ _ _ hvs
      exact ⟨_, .array hspells hmore, by rw [hbracket]; simp⟩
  · rename_i rest' hbrace
    obtain ⟨gap', hgap', hrest'⟩ := exists_gap rest'
    split at hread
    · rename_i hclose
      cases hread
      exact ⟨_, .emptyObject hgap', by rw [hbrace, hrest', hclose]; simp⟩
    · obtain ⟨⟨ms, rest⟩, hms, hv⟩ := Option.map_eq_some_iff.mp hread
      cases hv
      rw [readMembers_skipBlank] at hms
      obtain ⟨m, ms, text, more, rfl, hspells, hmore, rfl⟩ := h.members _ _ _ hms
      exact ⟨_, .object hspells hmore, by rw [hbrace]; simp⟩
  · exact spells_of_readWord hread

theorem ReadsOnly.items_succ {fuel : Nat} (h : ReadsOnly fuel) {cs rest : List Char}
    {vs : List Value} (hread : readItems (fuel + 1) cs = some (vs, rest)) :
    ∃ v vs' text more, vs = v :: vs' ∧ Spells (.value v) text ∧ Spells (.items vs') more ∧
      cs = text ++ (more ++ rest) := by
  rw [readItems_succ, Option.bind_eq_some_iff] at hread
  obtain ⟨⟨v, rest'⟩, hv, hread⟩ := hread
  obtain ⟨text, hspells, rfl⟩ := h.value _ _ _ hv
  obtain ⟨gap, hgap, ⟨rfl, rfl⟩ | ⟨next, vs', rfl, rfl, hvs⟩⟩ := readSeries_eq_some hread
  · exact ⟨v, [], text, _, rfl, hspells, .lastItem hgap, by simp⟩
  · obtain ⟨v', vs', text', more, rfl, hspells', hmore, rfl⟩ := h.items _ _ _ hvs
    exact ⟨v, _, text, _, rfl, hspells, .nextItem hgap hspells' hmore, by simp⟩

theorem ReadsOnly.members_succ {fuel : Nat} (h : ReadsOnly fuel) {cs rest : List Char}
    {ms : List (List Char × Value)} (hread : readMembers (fuel + 1) cs = some (ms, rest)) :
    ∃ m ms' text more, ms = m :: ms' ∧ Spells (.member m) text ∧ Spells (.members ms') more ∧
      cs = text ++ (more ++ rest) := by
  rw [readMembers_succ, Option.bind_eq_some_iff] at hread
  obtain ⟨⟨m, rest'⟩, hm, hread⟩ := hread
  obtain ⟨text, hspells, rfl⟩ := h.member hm
  obtain ⟨gap, hgap, ⟨rfl, rfl⟩ | ⟨next, ms', rfl, rfl, hms⟩⟩ := readSeries_eq_some hread
  · exact ⟨m, [], text, _, rfl, hspells, .lastMember hgap, by simp⟩
  · obtain ⟨m', ms', text', more, rfl, hspells', hmore, rfl⟩ := h.members _ _ _ hms
    exact ⟨m, _, text, _, rfl, hspells, .nextMember hgap hspells' hmore, by simp⟩

theorem readsOnly (fuel : Nat) : ReadsOnly fuel := by
  induction fuel with
  | zero => exact ⟨by rintro _ _ _ ⟨⟩, by rintro _ _ _ ⟨⟩, by rintro _ _ _ ⟨⟩⟩
  | succ fuel ih =>
      exact ⟨fun _ _ _ => ih.value_succ, fun _ _ _ => ih.items_succ, fun _ _ _ => ih.members_succ⟩

/-- Exactly the texts of a value are read as that value. -/
theorem parse_eq_some_iff (text : String) (v : Value) : parse text = some v ↔ Spelled text v := by
  refine ⟨fun h => ?_, parse_of_spelled⟩
  simp only [parse] at h
  split at h
  · rename_i found rest hread
    split at h
    · rename_i hrest
      cases h
      obtain ⟨cs, hspells, htext⟩ := (readsOnly _).value _ _ _ hread
      exact ⟨cs, rest, htext, hspells, (skipBlank_eq_nil_iff rest).mp hrest⟩
    · cases h
  · cases h

end Dialogue.Json
