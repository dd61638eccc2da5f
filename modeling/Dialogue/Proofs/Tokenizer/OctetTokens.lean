import Dialogue.Proofs.Text.Offsets
import Dialogue.Tokenizer.TokenText

namespace Dialogue.TokenText

open BytePair (hexDigit? hexNumber? textBytes unmark)
open Text.Utf8

/-- The hexadecimal digits of either case with their values. -/
def hexDigits : List (Char × Nat) :=
  "0123456789abcdef".toList.zipIdx ++ "ABCDEF".toList.zipIdx 10

theorem hexDigits_bounds :
    ∀ digit ∈ hexDigits, digit.1.toNat < 128 ∧ digit.2 < 16 ∧ digit.1 ≠ '+' := by
  decide +kernel

theorem lt_of_hexDigit {c : Char} {n : Nat} (h : hexDigit? c = some n) : c.toNat < 128 := by
  have hle : ∀ d : Char, d.toNat < 128 → c ≤ d → c.toNat < 128 := fun d hd hc =>
    Nat.lt_of_le_of_lt (UInt32.le_iff_toNat_le.mp (Char.le_def.mp hc)) hd
  rw [hexDigit?] at h
  split at h
  · rename_i hc
    exact hle '9' (by decide) hc.2
  · split at h
    · rename_i hc
      exact hle 'f' (by decide) hc.2
    · split at h
      · rename_i hc
        exact hle 'F' (by decide) hc.2
      · cases h

theorem hexDigit?_eq_some_iff {c : Char} {n : Nat} : hexDigit? c = some n ↔ (c, n) ∈ hexDigits := by
  constructor
  · intro h
    have hascii : ∀ m < 128, ∀ n ∈ hexDigit? (Char.ofNat m), (Char.ofNat m, n) ∈ hexDigits := by
      decide +kernel
    have hc := hascii c.toNat (lt_of_hexDigit h)
    rw [Char.ofNat_toNat] at hc
    exact hc n h
  · intro h
    have hall : ∀ digit ∈ hexDigits, hexDigit? digit.1 = some digit.2 := by decide +kernel
    exact hall (c, n) h

theorem hexDigit?_lt {c : Char} {n : Nat} (h : hexDigit? c = some n) : n < 16 :=
  (hexDigits_bounds _ (hexDigit?_eq_some_iff.mp h)).2.1

/-- A text is two hexadecimal digits between the brackets of a token for an octet. -/
inductive Spells : List Char → UInt8 → Prop
  | digits {a b : Char} {high low : Nat} : (a, high) ∈ hexDigits → (b, low) ∈ hexDigits →
      Spells ['<', '0', 'x', a, b, '>'] (UInt8.ofNat (high * 16 + low))

/-- A text has a plus sign in place of the first digit. -/
inductive SpellsSigned : List Char → UInt8 → Prop
  | digit {b : Char} {low : Nat} : (b, low) ∈ hexDigits →
      SpellsSigned ['<', '0', 'x', '+', b, '>'] (UInt8.ofNat low)

theorem octet?_eq_some_iff {text : List Char} {octet : UInt8} :
    BytePair.octet? text = some octet ↔ Spells text octet ∨ SpellsSigned text octet := by
  constructor
  · intro h
    rw [BytePair.octet?.eq_def] at h
    split at h
    · rename_i a b
      obtain ⟨n, hn, rfl⟩ := Option.map_eq_some_iff.mp h
      rw [hexNumber?] at hn
      split at hn
      · rename_i hplus
        subst hplus
        exact Or.inr (.digit (hexDigit?_eq_some_iff.mp hn))
      · split at hn
        · rename_i high low hhigh hlow
          cases hn
          exact Or.inl (.digits (hexDigit?_eq_some_iff.mp hhigh) (hexDigit?_eq_some_iff.mp hlow))
        · cases hn
    · cases h
  · rintro (hspells | hsigned)
    · cases hspells with
      | digits ha hb =>
          simp [BytePair.octet?, hexNumber?, (hexDigits_bounds _ ha).2.2,
            hexDigit?_eq_some_iff.mpr ha, hexDigit?_eq_some_iff.mpr hb]
    · cases hsigned with
      | digit hb => simp [BytePair.octet?, hexNumber?, hexDigit?_eq_some_iff.mpr hb]

theorem exists_ascii {text : List Char} {octet : UInt8} (h : BytePair.octet? text = some octet) :
    ∃ a b : Char, text = ['<', '0', 'x', a, b, '>'] ∧ a.toNat < 128 ∧ b.toNat < 128 := by
  rcases octet?_eq_some_iff.mp h with hspells | hsigned
  · cases hspells with
    | digits ha hb => exact ⟨_, _, rfl, (hexDigits_bounds _ ha).1, (hexDigits_bounds _ hb).1⟩
  · cases hsigned with
    | digit hb => exact ⟨_, _, rfl, by decide, (hexDigits_bounds _ hb).1⟩

section Slicing

variable {text digits : List Char}

theorem isBracketed_iff :
    isBracketed (encode text) = true ↔
      ∃ digits, text = ['<', '0', 'x'] ++ (digits ++ ['>']) ∧ (encode digits).length = 2 := by
  have hbegin : (encode ['<', '0', 'x']).length = 3 := by decide
  have hend : (encode ['>']).length = 1 := by decide
  simp only [isBracketed, Bool.and_eq_true, decide_eq_true_eq, List.isPrefixOf_iff_prefix,
    List.isSuffixOf_iff_suffix, encode_prefix_iff, encode_suffix_iff (List.cons_ne_nil '>' [])]
  constructor
  · rintro ⟨⟨hlength, rest, rfl⟩, front, hfront⟩
    rcases List.eq_nil_or_concat rest with rfl | ⟨digits, last, rfl⟩
    · rw [List.append_nil, hbegin] at hlength
      omega
    · rw [List.concat_eq_append, ← List.append_assoc] at hfront
      obtain ⟨-, hlast⟩ := List.append_inj' hfront rfl
      rw [List.concat_eq_append, ← hlast] at hlength ⊢
      refine ⟨digits, rfl, ?_⟩
      rw [encode_append, encode_append, List.length_append, List.length_append, hbegin,
        hend] at hlength
      omega
  · rintro ⟨digits, rfl, hdigits⟩
    refine ⟨⟨?_, List.prefix_append _ _⟩, ?_⟩
    · rw [encode_append, encode_append, List.length_append, List.length_append, hbegin, hend,
        hdigits]
    · rw [← List.append_assoc]
      exact List.suffix_append _ _

theorem slice_bracketed (h : (encode digits).length = 2) :
    slice? (encode (['<', '0', 'x'] ++ (digits ++ ['>']))) 3 5 = some (encode digits) := by
  have hbegin : (encode ['<', '0', 'x']).length = 3 := by decide
  have hthree : isBoundary (encode (['<', '0', 'x'] ++ (digits ++ ['>']))) 3 = true := by
    refine isBoundary_iff.mpr ⟨3, by simp, ?_⟩
    exact offset_length_append ['<', '0', 'x'] _
  have hfive : isBoundary (encode (['<', '0', 'x'] ++ (digits ++ ['>']))) 5 = true := by
    rw [← List.append_assoc]
    refine isBoundary_iff.mpr ⟨(['<', '0', 'x'] ++ digits).length, by simp, ?_⟩
    rw [offset_length_append, encode_append, List.length_append, hbegin, h]
  rw [slice?, if_pos ⟨by decide, hthree, hfive⟩, ← List.append_assoc, encode_append, encode_append,
    List.take_left' (by rw [List.length_append, hbegin, h]), List.drop_left' hbegin]

end Slicing

section Digits

theorem utf8EncodeChar_cases (c : Char) :
    (∃ b, String.utf8EncodeChar c = [b] ∧ Char.ofNat b.toNat = c) ∨
      ∃ first second rest, String.utf8EncodeChar c = first :: second :: rest ∧
        192 ≤ first.toNat := by
  obtain ⟨n, hn, rfl⟩ := exists_ofNat c
  rw [utf8EncodeChar_ofNat hn]
  rw [Nat.isValidChar] at hn
  split_ifs with hone
  · refine Or.inl ⟨_, rfl, ?_⟩
    rw [UInt8.toNat_ofNat', Nat.mod_eq_of_lt (by omega)]
  all_goals
    refine Or.inr ⟨_, _, _, rfl, ?_⟩
    rw [UInt8.toNat_ofNat']
    omega

theorem length_utf8EncodeChar_of_lt {c : Char} (h : c.toNat < 128) :
    (String.utf8EncodeChar c).length = 1 := by
  rw [String.length_utf8EncodeChar, Char.utf8Size_eq_one_iff, UInt32.le_iff_toNat_le]
  exact Nat.le_of_lt_succ h

theorem parseDigits_cons_some {value n : Nat} {b : UInt8}
    (h : hexDigit? (Char.ofNat b.toNat) = some n) (hlt : value * 16 + n < 256) (rest : List UInt8) :
    parseDigits? value (b :: rest) = parseDigits? (value * 16 + n) rest := by
  rw [parseDigits?, h]
  exact if_pos hlt

theorem parseDigits_cons_none {b : UInt8} (h : hexDigit? (Char.ofNat b.toNat) = none)
    (value : Nat) (rest : List UInt8) : parseDigits? value (b :: rest) = none := by
  rw [parseDigits?, h]
  rfl

theorem parseDigits_single (b : UInt8) :
    parseDigits? 0 [b] = hexDigit? (Char.ofNat b.toNat) := by
  cases h : hexDigit? (Char.ofNat b.toNat) with
  | none => exact parseDigits_cons_none h 0 []
  | some n =>
      have hn := hexDigit?_lt h
      rw [parseDigits_cons_some h (by omega), Nat.zero_mul, Nat.zero_add]
      rfl

theorem parseDigits_pair (a b : UInt8) (ha : Char.ofNat a.toNat ≠ '+') :
    parseDigits? 0 [a, b] = hexNumber? (Char.ofNat a.toNat) (Char.ofNat b.toNat) := by
  rw [hexNumber?, if_neg ha]
  cases hhigh : hexDigit? (Char.ofNat a.toNat) with
  | none => exact parseDigits_cons_none hhigh 0 [b]
  | some high =>
      have hlt := hexDigit?_lt hhigh
      rw [parseDigits_cons_some hhigh (by omega), Nat.zero_mul, Nat.zero_add]
      cases hlow : hexDigit? (Char.ofNat b.toNat) with
      | none => exact parseDigits_cons_none hlow high []
      | some low =>
          have hlt' := hexDigit?_lt hlow
          rw [parseDigits_cons_some hlow (by omega)]
          rfl

theorem ofNat_eq_plus_iff (b : UInt8) : Char.ofNat b.toNat = '+' ↔ b = 0x2B := by
  constructor
  · intro h
    have hall : ∀ n < 256, Char.ofNat n = '+' → n = 0x2B := by decide +kernel
    exact UInt8.toNat_inj.mp (hall b.toNat b.toNat_lt h)
  · rintro rfl
    rfl

theorem parseOctet_of_ne {x : UInt8} (h : x ≠ 0x2B) (rest : List UInt8) :
    parseOctet? (x :: rest) = (parseDigits? 0 (x :: rest)).map UInt8.ofNat := by
  simp [parseOctet?, h]

theorem parseOctet_encode {digits : List Char} (h : (encode digits).length = 2) :
    parseOctet? (encode digits) = BytePair.octet? (['<', '0', 'x'] ++ (digits ++ ['>'])) := by
  cases digits with
  | nil => cases h
  | cons a rest =>
      rw [encode_cons] at h ⊢
      rcases utf8EncodeChar_cases a with ⟨x, hx, rfl⟩ | ⟨x, y, more, hx, hlarge⟩
      · rw [hx] at h ⊢
        obtain ⟨b, rest, rfl⟩ : ∃ b others, rest = b :: others :=
          List.exists_cons_of_ne_nil (by rintro rfl; cases h)
        rw [encode_cons] at h ⊢
        rcases utf8EncodeChar_cases b with ⟨y, hy, rfl⟩ | ⟨y, z, more, hy, -⟩
        · rw [hy] at h ⊢
          obtain rfl := encode_eq_nil_iff.mp (by simpa using h : encode rest = [])
          change parseOctet? [x, y] = (hexNumber? (Char.ofNat x.toNat) (Char.ofNat y.toNat)).map _
          by_cases hplus : x = 0x2B
          · rw [hexNumber?, if_pos ((ofNat_eq_plus_iff x).mpr hplus), ← parseDigits_single, hplus]
            rfl
          · rw [← parseDigits_pair x y (mt (ofNat_eq_plus_iff x).mp hplus),
              parseOctet_of_ne hplus]
        · rw [hy] at h
          simp at h
      · rw [hx] at h ⊢
        have hmore : more = [] ∧ encode rest = [] := by
          simpa [List.append_eq_nil_iff] using h
        obtain ⟨rfl, hrest⟩ := hmore
        obtain rfl := encode_eq_nil_iff.mp hrest
        have hplus : x ≠ 0x2B := by
          rintro rfl
          exact absurd hlarge (by decide)
        have hall : ∀ n < 256, 192 ≤ n → hexDigit? (Char.ofNat n) = none := by decide +kernel
        rw [List.cons_append, parseOctet_of_ne hplus,
          parseDigits_cons_none (hall x.toNat x.toNat_lt hlarge)]
        rfl

end Digits

theorem read_eq (text : List Char) : read? text = some (textBytes text) := by
  rw [read?]
  split
  · rename_i hbracketed
    obtain ⟨digits, rfl, hdigits⟩ := isBracketed_iff.mp hbracketed
    rw [slice_bracketed hdigits, Option.bind_eq_bind, Option.bind_some, parseOctet_encode hdigits,
      textBytes]
    cases BytePair.octet? _ <;> rfl
  · rename_i hbracketed
    have hnone : BytePair.octet? text = none := by
      rw [Option.eq_none_iff_forall_not_mem]
      intro octet hoctet
      obtain ⟨a, b, rfl, ha, hb⟩ := exists_ascii hoctet
      refine hbracketed (isBracketed_iff.mpr ⟨[a, b], rfl, ?_⟩)
      simp [encode, length_utf8EncodeChar_of_lt ha, length_utf8EncodeChar_of_lt hb]
    rw [textBytes, hnone]

theorem SpellsSigned.textBytes_ne {text : List Char} {octet : UInt8} (h : SpellsSigned text octet) :
    [octet] ≠ encode (text.map unmark) := by
  cases h with
  | digit hb =>
      intro heq
      have htail := congrArg List.tail heq
      change [] = 0x30 :: _ at htail
      cases htail

/-- A token of two hexadecimal digits between the brackets is the octet they spell; any other is its
own octets, with the marker read as a space, but for a plus sign before a single digit, which is
read as the octet of that digit. Whatever the token, no character is cut, and an id past the last
token has no octets. -/
theorem tokenBytes_by_spelling (b : BytePair) (id : TokenId) :
    (b.vocabulary.size ≤ id.toNat → b.tokenBytes id = []) ∧
    ∀ token, b.vocabulary.token? id = some token →
      read? token.toList = some (b.tokenBytes id) ∧
      (∀ octet, Spells token.toList octet → b.tokenBytes id = [octet]) ∧
      (∀ octet, SpellsSigned token.toList octet → b.tokenBytes id = [octet]) ∧
      ((∀ octet, ¬ Spells token.toList octet) →
        (b.tokenBytes id = encode (token.toList.map fun c => if c = '\u2581' then ' ' else c) ↔
          ∀ octet, ¬ SpellsSigned token.toList octet)) := by
  constructor
  · intro hsize
    rw [BytePair.tokenBytes, Vocabulary.token?, Array.getElem?_eq_none hsize]
  · intro token htoken
    have hbytes : b.tokenBytes id = textBytes token.toList := by rw [BytePair.tokenBytes, htoken]
    have hoctet : ∀ octet, Spells token.toList octet ∨ SpellsSigned token.toList octet →
        b.tokenBytes id = [octet] := by
      intro octet hspelling
      rw [hbytes, textBytes, octet?_eq_some_iff.mpr hspelling]
    refine ⟨hbytes ▸ read_eq _, fun octet h => hoctet octet (Or.inl h),
      fun octet h => hoctet octet (Or.inr h), fun hspells => ⟨?_, ?_⟩⟩
    · intro hplain octet hsigned
      rw [hoctet octet (Or.inr hsigned)] at hplain
      exact hsigned.textBytes_ne hplain
    · intro hsigned
      have hnone : BytePair.octet? token.toList = none := by
        rw [Option.eq_none_iff_forall_not_mem]
        intro octet hmem
        exact (octet?_eq_some_iff.mp hmem).elim (hspells octet) (hsigned octet)
      rw [hbytes, textBytes, hnone]
      rfl

/-- A plus sign and a digit are no two digits, and yet they are read as an octet. -/
theorem tokenBytes_signed_digit :
    ∃ v b, Vocabulary.new ["<0x+F>"] none [] none = .ok v ∧ BytePair.new v [] = .ok b ∧
      b.vocabulary.token? 0 = some "<0x+F>" ∧ (∀ octet, ¬ Spells "<0x+F>".toList octet) ∧
      b.tokenBytes 0 = [15] ∧ encode "<0x+F>".toList = [60, 48, 120, 43, 70, 62] := by
  obtain ⟨v, hv⟩ : ∃ v, Vocabulary.new ["<0x+F>"] none [] none = .ok v := ⟨_, rfl⟩
  obtain ⟨b, hb⟩ : ∃ b, BytePair.new v [] = .ok b := by cases hv; exact ⟨_, rfl⟩
  refine ⟨v, b, hv, hb, ?_, ?_, ?_, ?_⟩
  · cases hv
    cases hb
    decide +kernel
  · rintro octet hspells
    rw [show "<0x+F>".toList = ['<', '0', 'x', '+', 'F', '>'] from rfl] at hspells
    cases hspells with
    | digits ha hb => exact (hexDigits_bounds _ ha).2.2 rfl
  · cases hv
    cases hb
    decide +kernel
  · decide +kernel

end Dialogue.TokenText
