import Dialogue.Json.Printer

namespace Dialogue.Json

/-- Digits that begin with zero only if there are no more. -/
inductive IsWhole : List Digit → Prop
  | zero : IsWhole [0]
  | nonzero {d : Digit} (hd : d ≠ 0) (rest : List Digit) : IsWhole (d :: rest)

inductive SpellsFraction : List Digit → List Char → Prop
  | missing : SpellsFraction [] []
  | digits {ds : List Digit} (hds : ds ≠ []) : SpellsFraction ds ('.' :: ds.map digitChar)

inductive SpellsSign : Bool → List Char → Prop
  | minus : SpellsSign true ['-']
  | plus : SpellsSign false ['+']
  | missing : SpellsSign false []

inductive SpellsExponent : Option (Bool × List Digit) → List Char → Prop
  | missing : SpellsExponent none []
  | digits {mark : Char} {negative : Bool} {sign : List Char} {ds : List Digit}
      (hmark : mark = 'e' ∨ mark = 'E') (hsign : SpellsSign negative sign) (hds : ds ≠ []) :
      SpellsExponent (some (negative, ds)) (mark :: (sign ++ ds.map digitChar))

inductive SpellsNumber : Literal → List Char → Prop
  | intro {negative : Bool} {whole fraction : List Digit} {exponent : Option (Bool × List Digit)}
      {point power : List Char} (hwhole : IsWhole whole) (hfraction : SpellsFraction fraction point)
      (hexponent : SpellsExponent exponent power) :
      SpellsNumber ⟨negative, whole, fraction, exponent⟩
        ((if negative then ['-'] else []) ++ (whole.map digitChar ++ (point ++ power)))

theorem digit?_digitChar (d : Digit) : digit? (digitChar d) = some d := by
  revert d
  decide

theorem digitChar_ne (d : Digit) {c : Char} (h : digit? c = none) : digitChar d ≠ c := by
  rintro rfl
  rw [digit?_digitChar] at h
  cases h

theorem digitChar_of_digit? {c : Char} {d : Digit} (h : digit? c = some d) : digitChar d = c := by
  rw [digit?] at h
  split at h
  · rename_i hdigit
    cases h
    have hbounds : 48 ≤ c.toNat ∧ c.toNat ≤ 57 := by
      simpa [Char.isDigit, UInt32.le_iff_toNat_le] using hdigit
    have hmod : '0'.toNat + (c.toNat - '0'.toNat) % 10 = c.toNat := by
      simp only [Char.reduceToNat]
      omega
    rw [digitChar, Fin.val_ofNat, hmod, Char.ofNat_toNat]
  · cases h

/-- No digit stands first. -/
def StopsDigits (cs : List Char) : Prop :=
  ∀ c ∈ cs.head?, digit? c = none

theorem digits_append {cs : List Char} (h : StopsDigits cs) (ds : List Digit) :
    digits (ds.map digitChar ++ cs) = (ds, cs) := by
  induction ds with
  | nil =>
      cases cs with
      | nil => rfl
      | cons c cs => simp [digits, h c rfl]
  | cons d ds ih => simp [digits, digit?_digitChar, ih]

theorem eq_of_digits {cs rest : List Char} {ds : List Digit} (h : digits cs = (ds, rest)) :
    cs = ds.map digitChar ++ rest := by
  fun_induction digits cs generalizing ds rest with
  | case1 =>
      cases h
      rfl
  | case2 =>
      cases h
      rfl
  | case3 c cs d hd ih =>
      cases h
      rw [List.map_cons, List.cons_append, digitChar_of_digit? hd, ← ih rfl]

theorem readDigits_append {cs : List Char} {ds : List Digit} (hds : ds ≠ [])
    (h : StopsDigits cs) : readDigits (ds.map digitChar ++ cs) = some (ds, cs) := by
  rw [readDigits, digits_append h]
  cases ds with
  | nil => exact absurd rfl hds
  | cons d ds => rfl

theorem eq_of_readDigits {cs rest : List Char} {ds : List Digit}
    (h : readDigits cs = some (ds, rest)) : ds ≠ [] ∧ cs = ds.map digitChar ++ rest := by
  rw [readDigits] at h
  split at h
  · cases h
  · rename_i hnil
    have hdigits := Option.some.inj h
    exact ⟨fun hds => hnil rest (hds ▸ hdigits), eq_of_digits hdigits⟩

theorem readWhole_append {cs : List Char} {ds : List Digit} (hds : IsWhole ds)
    (h : StopsDigits cs) : readWhole (ds.map digitChar ++ cs) = some (ds, cs) := by
  rw [readWhole, digits_append h]
  cases hds with
  | zero => rfl
  | nonzero hd rest => split <;> simp_all

theorem isWhole_of_readWhole {cs rest : List Char} {ds : List Digit}
    (h : readWhole cs = some (ds, rest)) : IsWhole ds ∧ cs = ds.map digitChar ++ rest := by
  rw [readWhole] at h
  split at h
  · cases h
  · cases h
  · rename_i hnil hzero
    have hdigits := Option.some.inj h
    refine ⟨?_, eq_of_digits hdigits⟩
    match ds with
    | [] => exact absurd hdigits (hnil rest)
    | [d] =>
        by_cases hd : d = 0
        · exact hd ▸ .zero
        · exact .nonzero hd []
    | d :: e :: ds => exact .nonzero (fun hd => hzero e ds rest (hd ▸ hdigits)) (e :: ds)

theorem readFraction_append {ds : List Digit} {point cs : List Char} (h : SpellsFraction ds point)
    (hdigits : StopsDigits cs) (hpoint : '.' ∉ cs.head?) :
    readFraction (point ++ cs) = some (ds, cs) := by
  cases h with
  | missing =>
      rw [List.nil_append, readFraction]
      rintro rest rfl
      exact hpoint rfl
  | digits hds => exact readDigits_append hds hdigits

theorem spellsFraction_of_readFraction {cs rest : List Char} {ds : List Digit}
    (h : readFraction cs = some (ds, rest)) :
    ∃ point, SpellsFraction ds point ∧ cs = point ++ rest := by
  rw [readFraction.eq_def] at h
  split at h
  · obtain ⟨hds, rfl⟩ := eq_of_readDigits h
    exact ⟨_, .digits hds, rfl⟩
  · cases h
    exact ⟨[], .missing, rfl⟩

theorem readSign_append {negative : Bool} {sign : List Char} (h : SpellsSign negative sign)
    {d : Digit} (cs : List Char) :
    readSign (sign ++ digitChar d :: cs) = (negative, digitChar d :: cs) := by
  cases h with
  | minus => rfl
  | plus => rfl
  | missing => simp [readSign, digitChar_ne d (c := '-') rfl, digitChar_ne d (c := '+') rfl]

theorem spellsSign_readSign (cs : List Char) :
    ∃ sign, SpellsSign (readSign cs).1 sign ∧ cs = sign ++ (readSign cs).2 := by
  rw [readSign.eq_def]
  split
  · exact ⟨_, .minus, rfl⟩
  · exact ⟨_, .plus, rfl⟩
  · exact ⟨[], .missing, rfl⟩

/-- Nothing that could belong to a number stands first. -/
def StopsNumber (cs : List Char) : Prop :=
  ∀ c ∈ cs.head?, digit? c = none ∧ c ≠ '.' ∧ c ≠ 'e' ∧ c ≠ 'E'

theorem readExponent_append {exponent : Option (Bool × List Digit)} {power cs : List Char}
    (h : SpellsExponent exponent power) (hcs : StopsNumber cs) :
    readExponent (power ++ cs) = some (exponent, cs) := by
  cases h with
  | missing =>
      cases cs with
      | nil => rfl
      | cons c cs =>
          obtain ⟨-, -, he, hE⟩ := hcs c rfl
          simp [readExponent, he, hE]
  | @digits mark negative sign ds hmark hsign hds =>
      have hstop : StopsDigits cs := fun c hc => (hcs c hc).1
      obtain ⟨d, ds, rfl⟩ := List.exists_cons_of_ne_nil hds
      have hread := readDigits_append hds hstop
      rw [List.map_cons, List.cons_append] at hread
      simp only [List.cons_append, List.append_assoc, List.map_cons, readExponent, hmark, if_true,
        readSign_append hsign, hread, Option.map_some]

theorem spellsExponent_of_readExponent {cs rest : List Char} {exponent : Option (Bool × List Digit)}
    (h : readExponent cs = some (exponent, rest)) :
    ∃ power, SpellsExponent exponent power ∧ cs = power ++ rest := by
  cases cs with
  | nil =>
      cases h
      exact ⟨[], .missing, rfl⟩
  | cons c cs =>
      rw [readExponent] at h
      split at h
      · rename_i hmark
        obtain ⟨sign, hsign, hcs⟩ := spellsSign_readSign cs
        obtain ⟨⟨ds, rest⟩, hds, hread⟩ := Option.map_eq_some_iff.mp h
        obtain ⟨hne, hdigits⟩ := eq_of_readDigits hds
        cases hread
        refine ⟨_, .digits hmark hsign hne, ?_⟩
        rw [List.cons_append, List.append_assoc, ← hdigits]
        exact congrArg (List.cons c) hcs
      · cases h
        exact ⟨[], .missing, rfl⟩

theorem readMinus_append (negative : Bool) (d : Digit) (cs : List Char) :
    readMinus ((if negative then ['-'] else []) ++ digitChar d :: cs) =
      (negative, digitChar d :: cs) := by
  cases negative with
  | true => rfl
  | false => simp [readMinus, digitChar_ne d (c := '-') rfl]

theorem eq_of_readMinus (cs : List Char) :
    cs = (if (readMinus cs).1 then ['-'] else []) ++ (readMinus cs).2 := by
  rw [readMinus.eq_def]
  split <;> rfl

theorem IsWhole.exists_cons {ds : List Digit} (h : IsWhole ds) : ∃ d rest, ds = d :: rest := by
  cases h with
  | zero => exact ⟨0, [], rfl⟩
  | nonzero _ rest => exact ⟨_, rest, rfl⟩

theorem stops_power {exponent : Option (Bool × List Digit)} {power cs : List Char}
    (h : SpellsExponent exponent power) (hcs : StopsNumber cs) :
    StopsDigits (power ++ cs) ∧ '.' ∉ (power ++ cs).head? := by
  cases h with
  | missing => exact ⟨fun c hc => (hcs c hc).1, fun hpoint => (hcs '.' hpoint).2.1 rfl⟩
  | digits hmark =>
      rcases hmark with rfl | rfl
      · exact ⟨by rintro c ⟨⟩; rfl, by simp⟩
      · exact ⟨by rintro c ⟨⟩; rfl, by simp⟩

theorem stopsDigits_point {ds : List Digit} {point cs : List Char} (h : SpellsFraction ds point)
    (hcs : StopsDigits cs) : StopsDigits (point ++ cs) := by
  cases h with
  | missing => exact hcs
  | digits hds =>
      rintro c ⟨⟩
      rfl

theorem readNumber_append {l : Literal} {text cs : List Char} (h : SpellsNumber l text)
    (hcs : StopsNumber cs) : readNumber (text ++ cs) = some (l, cs) := by
  obtain @⟨negative, whole, fraction, exponent, point, power, hwhole, hfraction, hexponent⟩ := h
  obtain ⟨hdigits, hpoint⟩ := stops_power hexponent hcs
  have hread := readWhole_append hwhole (stopsDigits_point hfraction hdigits)
  obtain ⟨d, rest, rfl⟩ := hwhole.exists_cons
  rw [List.map_cons, List.cons_append] at hread
  simp only [List.append_assoc, List.map_cons, List.cons_append, readNumber, readMinus_append,
    hread, readFraction_append hfraction hdigits hpoint, readExponent_append hexponent hcs, bind,
    Option.bind]

theorem spellsNumber_of_readNumber {l : Literal} {cs rest : List Char}
    (h : readNumber cs = some (l, rest)) : ∃ text, SpellsNumber l text ∧ cs = text ++ rest := by
  have hminus := eq_of_readMinus cs
  simp only [readNumber, bind, Option.bind_eq_some_iff] at h
  obtain ⟨⟨whole, cs₁⟩, hwhole, ⟨fraction, cs₂⟩, hfraction, ⟨exponent, cs₃⟩, hexponent, hl⟩ := h
  cases hl
  obtain ⟨hdigits, hcs⟩ := isWhole_of_readWhole hwhole
  obtain ⟨point, hpoint, rfl⟩ := spellsFraction_of_readFraction hfraction
  obtain ⟨power, hpower, rfl⟩ := spellsExponent_of_readExponent hexponent
  refine ⟨_, .intro hdigits hpoint hpower, ?_⟩
  rw [hcs] at hminus
  simpa only [List.append_assoc] using hminus

def opensNumber (c : Char) : Bool :=
  c = '-' || (digit? c).isSome

theorem ne_of_opensNumber {c other : Char} (hc : opensNumber c = true)
    (hother : opensNumber other = false) : c ≠ other := by
  rintro rfl
  rw [hc] at hother
  cases hother

theorem SpellsNumber.exists_cons {l : Literal} {text : List Char} (h : SpellsNumber l text) :
    ∃ c cs, text = c :: cs ∧ opensNumber c = true := by
  obtain @⟨negative, whole, fraction, exponent, point, power, hwhole, hfraction, hexponent⟩ := h
  obtain ⟨d, rest, rfl⟩ := hwhole.exists_cons
  cases negative with
  | true => exact ⟨_, _, rfl, rfl⟩
  | false => exact ⟨_, _, rfl, by simp [opensNumber, digit?_digitChar]⟩

end Dialogue.Json
