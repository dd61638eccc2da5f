import Mathlib.Data.List.TakeWhile
import Dialogue.Proofs.Json.Numerals
import Dialogue.Proofs.Json.Strings

namespace Dialogue.Json

def Blank (gap : List Char) : Prop :=
  ∀ c ∈ gap, isBlank c = true

@[simp] theorem blank_nil : Blank [] :=
  List.forall_mem_nil _

inductive Phrase where
  | value (v : Value)
  | member (m : List Char × Value)
  | items (vs : List Value)
  | members (ms : List (List Char × Value))

/-- The texts of a part, with any blanks before it. -/
inductive Spells : Phrase → List Char → Prop
  | padded {v : Value} {gap text : List Char} (hgap : Blank gap) (hv : Spells (.value v) text) :
      Spells (.value v) (gap ++ text)
  | null : Spells (.value .null) ['n', 'u', 'l', 'l']
  | true : Spells (.value (.bool true)) ['t', 'r', 'u', 'e']
  | false : Spells (.value (.bool false)) ['f', 'a', 'l', 's', 'e']
  | number {l : Literal} {text : List Char} (hl : SpellsNumber l text) :
      Spells (.value (.number l)) text
  | string {s : List Char} (hs : Escaped s) : Spells (.value (.string s)) ('"' :: (s ++ ['"']))
  | emptyArray {gap : List Char} (hgap : Blank gap) :
      Spells (.value (.array [])) ('[' :: (gap ++ [']']))
  | array {v : Value} {vs : List Value} {text more : List Char} (hv : Spells (.value v) text)
      (hvs : Spells (.items vs) more) : Spells (.value (.array (v :: vs))) ('[' :: (text ++ more))
  | emptyObject {gap : List Char} (hgap : Blank gap) :
      Spells (.value (.object [])) ('{' :: (gap ++ ['}']))
  | object {m : List Char × Value} {ms : List (List Char × Value)} {text more : List Char}
      (hm : Spells (.member m) text) (hms : Spells (.members ms) more) :
      Spells (.value (.object (m :: ms))) ('{' :: (text ++ more))
  | member {key gap gap' text : List Char} {v : Value} (hgap : Blank gap) (hkey : Escaped key)
      (hgap' : Blank gap') (hv : Spells (.value v) text) :
      Spells (.member (key, v)) (gap ++ '"' :: (key ++ '"' :: (gap' ++ ':' :: text)))
  | lastItem {gap : List Char} (hgap : Blank gap) : Spells (.items []) (gap ++ [']'])
  | nextItem {v : Value} {vs : List Value} {gap text more : List Char} (hgap : Blank gap)
      (hv : Spells (.value v) text) (hvs : Spells (.items vs) more) :
      Spells (.items (v :: vs)) (gap ++ ',' :: (text ++ more))
  | lastMember {gap : List Char} (hgap : Blank gap) : Spells (.members []) (gap ++ ['}'])
  | nextMember {m : List Char × Value} {ms : List (List Char × Value)} {gap text more : List Char}
      (hgap : Blank gap) (hm : Spells (.member m) text) (hms : Spells (.members ms) more) :
      Spells (.members (m :: ms)) (gap ++ ',' :: (text ++ more))

/-- A text holds a value and nothing else but blanks. -/
def Spelled (text : String) (v : Value) : Prop :=
  ∃ cs gap, text.toList = cs ++ gap ∧ Spells (.value v) cs ∧ Blank gap

theorem skipBlank_append {gap : List Char} (h : Blank gap) (cs : List Char) :
    skipBlank (gap ++ cs) = skipBlank cs :=
  List.dropWhile_append_of_pos h

theorem skipBlank_cons {c : Char} (h : isBlank c = false) (cs : List Char) :
    skipBlank (c :: cs) = c :: cs :=
  List.dropWhile_cons_of_neg (by simp [h])

theorem skipBlank_eq_nil_iff (cs : List Char) : skipBlank cs = [] ↔ Blank cs :=
  List.dropWhile_eq_nil_iff

theorem exists_gap (cs : List Char) : ∃ gap, Blank gap ∧ cs = gap ++ skipBlank cs :=
  ⟨cs.takeWhile isBlank, fun _ hc => List.mem_takeWhile_imp hc,
    List.takeWhile_append_dropWhile.symm⟩

theorem skipBlank_skipBlank (cs : List Char) : skipBlank (skipBlank cs) = skipBlank cs := by
  obtain ⟨gap, hgap, hcs⟩ := exists_gap cs
  rw [← skipBlank_append hgap, ← hcs]

end Dialogue.Json
