import Dialogue.Proofs.Json.Reading

namespace Dialogue.Json

def Phrase.render : Phrase → List Char
  | .value v => v.render
  | .member (key, v) => '"' :: (key ++ '"' :: ':' :: v.render)
  | .items vs => renderItems vs
  | .members ms => renderMembers ms

theorem SpellsFraction.render {ds : List Digit} {point : List Char} (h : SpellsFraction ds point) :
    SpellsFraction ds (if ds.isEmpty then [] else '.' :: ds.map digitChar) := by
  cases h with
  | missing => exact .missing
  | digits hds =>
      rw [if_neg (by simpa using hds)]
      exact .digits hds

theorem SpellsNumber.render {l : Literal} {text : List Char} (h : SpellsNumber l text) :
    SpellsNumber l l.render := by
  obtain ⟨hwhole, hfraction, hexponent⟩ := h
  simp only [Literal.render, List.append_assoc]
  refine .intro hwhole hfraction.render ?_
  cases hexponent with
  | missing => exact .missing
  | @digits _ negative _ _ _ _ hds =>
      cases negative with
      | true => exact .digits (.inl rfl) .minus hds
      | false => exact .digits (.inl rfl) .missing hds

theorem Spells.render {phrase : Phrase} {text : List Char} (h : Spells phrase text) :
    Spells phrase phrase.render := by
  induction h with
  | padded _ _ ih => exact ih
  | null => exact .null
  | true => exact .true
  | false => exact .false
  | number hl => exact .number hl.render
  | string hs => exact .string hs
  | emptyArray _ => exact .emptyArray blank_nil
  | array _ _ ihv ihvs => exact .array ihv ihvs
  | emptyObject _ => exact .emptyObject blank_nil
  | @object m ms _ _ _ _ ihm ihms =>
      have h := Spells.object ihm ihms
      simpa [Phrase.render, Value.render] using h
  | member _ hkey _ _ ih => exact .member blank_nil hkey blank_nil ih
  | lastItem _ => exact .lastItem blank_nil
  | nextItem _ _ _ ihv ihvs => exact .nextItem blank_nil ihv ihvs
  | lastMember _ => exact .lastMember blank_nil
  | @nextMember m ms _ _ _ _ _ _ ihm ihms =>
      have h := Spells.nextMember blank_nil ihm ihms
      simpa [Phrase.render, Value.render, renderMembers] using h

/-- A value is one that can be written. -/
def Value.Writable (v : Value) : Prop :=
  ∃ text, Spells (.value v) text

theorem spelled_print {v : Value} (h : v.Writable) : Spelled v.print v := by
  obtain ⟨text, hv⟩ := h
  exact ⟨v.render, [], by simp [Value.print], hv.render, blank_nil⟩

theorem parse_print {text : String} {v : Value} (h : parse text = some v) :
    parse v.print = some v := by
  obtain ⟨cs, -, -, hv, -⟩ := (parse_eq_some_iff text v).mp h
  exact parse_of_spelled (spelled_print ⟨cs, hv⟩)

theorem writable_ofText (s : String) : (Value.ofText s).Writable :=
  ⟨_, .string (escaped_escape s.toList)⟩

theorem writable_bool (b : Bool) : (Value.bool b).Writable := by
  cases b with
  | true => exact ⟨_, .true⟩
  | false => exact ⟨_, .false⟩

theorem exists_items {vs : List Value} (h : ∀ v ∈ vs, v.Writable) :
    ∃ text, Spells (.items vs) text := by
  induction vs with
  | nil => exact ⟨_, .lastItem blank_nil⟩
  | cons v vs ih =>
      rw [List.forall_mem_cons] at h
      obtain ⟨text, hv⟩ := h.1
      obtain ⟨more, hvs⟩ := ih h.2
      exact ⟨_, .nextItem blank_nil hv hvs⟩

theorem writable_array {vs : List Value} (h : ∀ v ∈ vs, v.Writable) :
    (Value.array vs).Writable := by
  cases vs with
  | nil => exact ⟨_, .emptyArray blank_nil⟩
  | cons v vs =>
      rw [List.forall_mem_cons] at h
      obtain ⟨text, hv⟩ := h.1
      obtain ⟨more, hvs⟩ := exists_items h.2
      exact ⟨_, .array hv hvs⟩

theorem exists_member {m : List Char × Value} (h : Escaped m.1 ∧ m.2.Writable) :
    ∃ text, Spells (.member m) text := by
  obtain ⟨hkey, text, hv⟩ := h
  exact ⟨_, .member blank_nil hkey blank_nil hv⟩

theorem exists_members {ms : List (List Char × Value)}
    (h : ∀ m ∈ ms, Escaped m.1 ∧ m.2.Writable) : ∃ text, Spells (.members ms) text := by
  induction ms with
  | nil => exact ⟨_, .lastMember blank_nil⟩
  | cons m ms ih =>
      rw [List.forall_mem_cons] at h
      obtain ⟨text, hm⟩ := exists_member h.1
      obtain ⟨more, hms⟩ := ih h.2
      exact ⟨_, .nextMember blank_nil hm hms⟩

theorem writable_object {ms : List (List Char × Value)}
    (h : ∀ m ∈ ms, Escaped m.1 ∧ m.2.Writable) : (Value.object ms).Writable := by
  cases ms with
  | nil => exact ⟨_, .emptyObject blank_nil⟩
  | cons m ms =>
      rw [List.forall_mem_cons] at h
      obtain ⟨text, hm⟩ := exists_member h.1
      obtain ⟨more, hms⟩ := exists_members h.2
      exact ⟨_, .object hm hms⟩

end Dialogue.Json
