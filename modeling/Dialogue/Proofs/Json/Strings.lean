import Mathlib.Tactic.SplitIfs
import Dialogue.Json.Printer

namespace Dialogue.Json

/-- Characters that may stand between quotes, escapes unresolved. -/
inductive Escaped : List Char → Prop
  | nil : Escaped []
  | plain {c : Char} {cs : List Char} (hquote : c ≠ '"') (hbackslash : c ≠ '\\')
      (hcontrol : 0x20 ≤ c.toNat) (hrest : Escaped cs) : Escaped (c :: cs)
  | letter {e : Char} {cs : List Char} (hletter : isEscapeLetter e = true) (hrest : Escaped cs) :
      Escaped ('\\' :: e :: cs)
  | unit {a b c d : Char} {cs : List Char}
      (hhex : (isHex a && isHex b && isHex c && isHex d) = true) (hrest : Escaped cs) :
      Escaped ('\\' :: 'u' :: a :: b :: c :: d :: cs)

theorem isEscapeLetter_ne_u {e : Char} (h : isEscapeLetter e = true) : e ≠ 'u' := by
  rintro rfl
  exact absurd h (by decide)

theorem readString_of_escaped {s : List Char} (h : Escaped s) (rest : List Char) :
    readString (s ++ '"' :: rest) = some (s, rest) := by
  induction h with
  | nil => rfl
  | plain _ hbackslash hcontrol _ ih =>
      rw [List.cons_append, readString.eq_def]
      simp [hbackslash, Nat.not_lt.mpr hcontrol, ih]
  | letter hletter _ ih =>
      rw [List.cons_append, readString.eq_def]
      simp [isEscapeLetter_ne_u hletter, hletter, ih]
  | unit hhex _ ih =>
      rw [List.cons_append, readString.eq_def]
      simp [hhex, ih]

theorem escaped_of_readString {cs s rest : List Char} (h : readString cs = some (s, rest)) :
    Escaped s ∧ cs = s ++ '"' :: rest := by
  fun_induction readString cs generalizing s rest with
  | case1 => cases h
  | case2 cs =>
      cases h
      exact ⟨.nil, rfl⟩
  | case3 a b c d cs hhex ih =>
      obtain ⟨⟨s, rest⟩, hs, hread⟩ := Option.map_eq_some_iff.mp h
      cases hread
      obtain ⟨hescaped, rfl⟩ := ih hs
      exact ⟨.unit hhex hescaped, rfl⟩
  | case4 => cases h
  | case5 e cs _ hletter ih =>
      obtain ⟨⟨s, rest⟩, hs, hread⟩ := Option.map_eq_some_iff.mp h
      cases hread
      obtain ⟨hescaped, rfl⟩ := ih hs
      exact ⟨.letter hletter hescaped, rfl⟩
  | case6 => cases h
  | case7 => cases h
  | case8 c cs hquote _ _ hplain ih =>
      obtain ⟨⟨s, rest⟩, hs, hread⟩ := Option.map_eq_some_iff.mp h
      cases hread
      obtain ⟨hescaped, rfl⟩ := ih hs
      rw [not_or, Nat.not_lt] at hplain
      exact ⟨.plain hquote hplain.1 hplain.2 hescaped, rfl⟩

theorem hexValue_lowHex (n : Fin 16) : isHex (lowHex n) = true ∧ hexValue (lowHex n) = n := by
  revert n
  decide

theorem hexUnit_lowHex {n : Nat} (h : n < 0x20) :
    hexUnit '0' '0' (lowHex (n / 16)) (lowHex (n % 16)) = n := by
  have hhigh := (hexValue_lowHex ⟨n / 16, by omega⟩).2
  have hlow := (hexValue_lowHex ⟨n % 16, Nat.mod_lt n (by decide)⟩).2
  have hzero : hexValue '0' = 0 := rfl
  simp only at hhigh hlow
  rw [hexUnit, hzero, hhigh, hlow]
  omega

theorem escapeChar_cases (c : Char) :
    (∃ e, isEscapeLetter e = true ∧ escapedChar e = c ∧ escapeChar c = ['\\', e]) ∨
      (c.toNat < 0x20 ∧
        escapeChar c = ['\\', 'u', '0', '0', lowHex (c.toNat / 16), lowHex (c.toNat % 16)]) ∨
      c ≠ '"' ∧ c ≠ '\\' ∧ 0x20 ≤ c.toNat ∧ escapeChar c = [c] := by
  simp only [escapeChar]
  split_ifs with hquote hbackslash hback hfeed hline hreturn htab hcontrol
  · exact .inl ⟨'"', rfl, hquote.symm, rfl⟩
  · exact .inl ⟨'\\', rfl, hbackslash.symm, rfl⟩
  · exact .inl ⟨'b', rfl, hback.symm, rfl⟩
  · exact .inl ⟨'f', rfl, hfeed.symm, rfl⟩
  · exact .inl ⟨'n', rfl, hline.symm, rfl⟩
  · exact .inl ⟨'r', rfl, hreturn.symm, rfl⟩
  · exact .inl ⟨'t', rfl, htab.symm, rfl⟩
  · exact .inr (.inl ⟨hcontrol, rfl⟩)
  · exact .inr (.inr ⟨hquote, hbackslash, Nat.not_lt.mp hcontrol, rfl⟩)

theorem unescape_escapeChar (c : Char) (cs : List Char) :
    unescape (escapeChar c ++ cs) = (unescape cs).map (c :: ·) := by
  rcases escapeChar_cases c with ⟨e, hletter, rfl, he⟩ | ⟨hcontrol, hunit⟩ | ⟨-, hplain, -, hc⟩
  · rw [he, List.cons_append, unescape.eq_def]
    simp [isEscapeLetter_ne_u hletter]
  · have hnumber := hexUnit_lowHex hcontrol
    have hleading : isLeading c.toNat = false := by simp [isLeading]; omega
    have htrailing : isTrailing c.toNat = false := by simp [isTrailing]; omega
    rw [hunit, List.cons_append, unescape.eq_def]
    simp [hnumber, hleading, htrailing]
  · rw [hc, List.cons_append, unescape.eq_def]
    simp [hplain]

theorem unescape_escape (s : List Char) : unescape (escape s) = some s := by
  induction s with
  | nil => rfl
  | cons c cs ih =>
      rw [escape, List.flatMap_cons, ← escape, unescape_escapeChar, ih]
      rfl

theorem Escaped.escapeChar_append (c : Char) {cs : List Char} (h : Escaped cs) :
    Escaped (escapeChar c ++ cs) := by
  rcases escapeChar_cases c with
    ⟨e, hletter, -, he⟩ | ⟨hcontrol, hunit⟩ | ⟨hquote, hbackslash, hcontrol, hc⟩
  · rw [he]
    exact .letter hletter h
  · have hhigh := (hexValue_lowHex ⟨c.toNat / 16, by omega⟩).1
    have hlow := (hexValue_lowHex ⟨c.toNat % 16, Nat.mod_lt _ (by decide)⟩).1
    simp only at hhigh hlow
    rw [hunit]
    refine .unit ?_ h
    rw [hhigh, hlow]
    rfl
  · rw [hc]
    exact .plain hquote hbackslash hcontrol h

theorem escaped_escape (s : List Char) : Escaped (escape s) := by
  induction s with
  | nil => exact .nil
  | cons c cs ih =>
      rw [escape, List.flatMap_cons, ← escape]
      exact ih.escapeChar_append c

end Dialogue.Json
