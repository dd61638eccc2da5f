import Mathlib.Data.List.Infix
import Dialogue.Session.Reply

namespace Dialogue.Text.Utf8

/-- The text of octets, without those at the end that begin a character. -/
def known (octets : List UInt8) : List Char :=
  (decode [] octets).1

theorem known_append (first second : List UInt8) :
    known (first ++ second) = known first ++ (decode (decode [] first).2 second).1 := by
  rw [known, decode_append]
  rfl

theorem lossy_eq (octets : List UInt8) :
    lossy octets = known octets ++ finish (decode [] octets).2 := rfl

end Dialogue.Text.Utf8

namespace Dialogue.Reply

open Text.Utf8 (known known_append decode finish lossy lossy_eq replacement)

/-- Where the first stop string of a text begins; empty ones do not count. -/
def firstStop (stops : List String) (text : List Char) : Option Nat :=
  (List.range text.length).find? fun i =>
    stops.any fun s => s ≠ "" && s.toList.isPrefixOf (text.drop i)

/-- No stop string occurs in a text. -/
def Free (stops : List (List Char)) (text : List Char) : Prop :=
  ∀ s ∈ stops, ¬ s <:+: text

theorem startsWithStop_iff {stops : List (List Char)} {text : List Char} :
    startsWithStop stops text = true ↔ ∃ s ∈ stops, s <+: text := by
  simp [startsWithStop]

theorem mem_stops_ofStops {stops : List String} {s : List Char} :
    s ∈ (ofStops stops).stops ↔ s ≠ [] ∧ ∃ stop ∈ stops, stop.toList = s := by
  simp only [ofStops, List.mem_filter, List.mem_map, Bool.not_eq_eq_eq_not, Bool.not_true,
    List.isEmpty_eq_false_iff]
  exact and_comm

theorem ne_nil_of_mem_ofStops {stops : List String} {s : List Char}
    (hs : s ∈ (ofStops stops).stops) : s ≠ [] :=
  (mem_stops_ofStops.mp hs).1

theorem startsWithStop_ofStops (stops : List String) (text : List Char) :
    startsWithStop (ofStops stops).stops text =
      stops.any fun s => s ≠ "" && s.toList.isPrefixOf text := by
  rw [startsWithStop, ofStops, List.any_filter, List.any_map]
  congr 1
  funext s
  cases h : s.toList <;> simp [h, ← String.toList_eq_nil_iff]

theorem beforeStop_eq_map_find (stops : List (List Char)) (text : List Char) :
    beforeStop stops text =
      ((List.range text.length).find? fun i => startsWithStop stops (text.drop i)).map
        text.take := by
  induction text with
  | nil => rfl
  | cons c text ih =>
      rw [beforeStop, List.length_cons, List.range_succ_eq_map, List.find?_cons]
      by_cases h : startsWithStop stops (c :: text) = true
      · simp [h]
      · rw [if_neg h, ih]
        simp only [List.drop_zero, h, List.find?_map, Option.map_map]
        rfl

theorem beforeStop_ofStops (stops : List String) (text : List Char) :
    beforeStop (ofStops stops).stops text = (firstStop stops text).map text.take := by
  rw [beforeStop_eq_map_find, firstStop]
  simp only [startsWithStop_ofStops]

example : firstStop ["", "ab", "b"] ['x', 'a', 'a', 'b'] = some 2 := by decide

variable {stops : List (List Char)}

theorem Free.mono {text longer : List Char} (h : Free stops longer) (hsub : text <:+: longer) :
    Free stops text :=
  fun s hs hinside => h s hs (hinside.trans hsub)

theorem free_nil (hne : ∀ s ∈ stops, s ≠ []) : Free stops [] := by
  intro s hs hinside
  exact hne s hs (List.infix_nil.mp hinside)

theorem free_cons_iff {c : Char} {text : List Char} :
    Free stops (c :: text) ↔ startsWithStop stops (c :: text) = false ∧ Free stops text := by
  rw [← Bool.not_eq_true, startsWithStop_iff]
  constructor
  · intro h
    refine ⟨?_, h.mono (List.infix_cons (List.infix_refl text))⟩
    rintro ⟨s, hs, hstarts⟩
    exact h s hs hstarts.isInfix
  · rintro ⟨hstart, hfree⟩ s hs hinside
    rcases List.infix_cons_iff.mp hinside with hstarts | hinside
    · exact hstart ⟨s, hs, hstarts⟩
    · exact hfree s hs hinside

theorem beforeStop_eq_none_iff (hne : ∀ s ∈ stops, s ≠ []) {text : List Char} :
    beforeStop stops text = none ↔ Free stops text := by
  induction text with
  | nil => simp [beforeStop, free_nil hne]
  | cons c text ih =>
      rw [free_cons_iff, ← ih, beforeStop]
      by_cases h : startsWithStop stops (c :: text) = true <;> simp [h]

theorem beforeStop_prefix {text before : List Char} (h : beforeStop stops text = some before) :
    before <+: text := by
  rw [beforeStop_eq_map_find, Option.map_eq_some_iff] at h
  obtain ⟨i, -, rfl⟩ := h
  exact List.take_prefix i text

theorem free_of_beforeStop (hne : ∀ s ∈ stops, s ≠ []) {text before : List Char}
    (h : beforeStop stops text = some before) : Free stops before := by
  induction text generalizing before with
  | nil => simp [beforeStop] at h
  | cons c text ih =>
      by_cases hstart : startsWithStop stops (c :: text) = true
      · have hnil : before = [] := by simpa [beforeStop, hstart] using h.symm
        exact hnil ▸ free_nil hne
      · rw [beforeStop, if_neg hstart, Option.map_eq_some_iff] at h
        obtain ⟨rest, hrest, rfl⟩ := h
        refine free_cons_iff.mpr ⟨?_, ih hrest⟩
        rw [Bool.not_eq_true] at hstart
        rw [← Bool.not_eq_true, startsWithStop_iff] at hstart ⊢
        rintro ⟨s, hs, hstarts⟩
        have hlonger : c :: rest <+: c :: text :=
          List.cons_prefix_cons.mpr ⟨rfl, beforeStop_prefix hrest⟩
        exact hstart ⟨s, hs, hstarts.trans hlonger⟩

theorem beforeStop_append {shown tail : List Char}
    (h : ∀ b, b <:+ shown → b ≠ [] → startsWithStop stops (b ++ tail) = false) :
    beforeStop stops (shown ++ tail) = (beforeStop stops tail).map (shown ++ ·) := by
  induction shown with
  | nil => simp
  | cons c shown ih =>
      have hhead := h (c :: shown) List.suffix_rfl (List.cons_ne_nil c shown)
      have htail := ih fun b hb => h b (hb.trans (List.suffix_cons c shown))
      rw [List.cons_append] at hhead ⊢
      rw [beforeStop, hhead, htail]
      simp only [Bool.false_eq_true, if_false, Option.map_map]
      rfl

theorem not_beginsStop_of_release {tail b : List Char} (hb : b <:+ (release stops tail).1)
    (hne : b ≠ []) : beginsStop stops (b ++ (release stops tail).2) = false := by
  induction tail generalizing b with
  | nil => exact absurd (List.suffix_nil.mp hb) hne
  | cons c tail ih =>
      by_cases hbegins : beginsStop stops (c :: tail) = true
      · simp only [release, hbegins, if_true] at hb
        exact absurd (List.suffix_nil.mp hb) hne
      · rw [Bool.not_eq_true] at hbegins
        simp only [release, hbegins, Bool.false_eq_true, if_false] at hb ⊢
        rcases List.suffix_cons_iff.mp hb with rfl | hb
        · rw [List.cons_append, release_append]
          exact hbegins
        · exact ih hb hne

/-- No stop string begins in what is shown, whatever follows what is held back. -/
def Passed (stops : List (List Char)) (shown held : List Char) : Prop :=
  ∀ b, b <:+ shown → b ≠ [] → ∀ s ∈ stops, ¬ b ++ held <+: s

theorem passed_nil (held : List Char) : Passed stops [] held := by
  intro b hb hne
  exact absurd (List.suffix_nil.mp hb) hne

theorem Passed.startsWithStop_eq_false {shown held more b : List Char}
    (h : Passed stops shown held) (hfree : Free stops (shown ++ held)) (hb : b <:+ shown)
    (hne : b ≠ []) : startsWithStop stops (b ++ (held ++ more)) = false := by
  rw [← Bool.not_eq_true, startsWithStop_iff]
  rintro ⟨s, hs, hstarts⟩
  have hown : b ++ held <+: b ++ (held ++ more) :=
    ⟨more, by rw [List.append_assoc]⟩
  rcases List.prefix_or_prefix_of_prefix hstarts hown with hshort | hlong
  · have hsuffix : b ++ held <:+ shown ++ held := by
      obtain ⟨front, rfl⟩ := hb
      exact ⟨front, (List.append_assoc front b held).symm⟩
    exact hfree s hs (hshort.isInfix.trans hsuffix.isInfix)
  · exact h b hb hne s hs hlong

theorem suffix_append_cases {b first second : List Char} (h : b <:+ first ++ second) :
    b <:+ second ∨ ∃ front, front <:+ first ∧ front ≠ [] ∧ b = front ++ second := by
  rcases List.suffix_or_suffix_of_suffix h (List.suffix_append first second) with hb | hsecond
  · exact Or.inl hb
  · obtain ⟨front, rfl⟩ := hsecond
    rcases eq_or_ne front [] with rfl | hne
    · exact Or.inl (by simp)
    · obtain ⟨before, hbefore⟩ := h
      rw [← List.append_assoc] at hbefore
      exact Or.inr ⟨front, ⟨before, List.append_cancel_right hbefore⟩, hne, rfl⟩

theorem Passed.release {shown held more : List Char} (h : Passed stops shown held)
    (hfree : Free stops (held ++ more)) :
    Passed stops (shown ++ (release stops (held ++ more)).1)
      (release stops (held ++ more)).2 := by
  intro b hb hne s hs hstarts
  rcases suffix_append_cases hb with hb | ⟨front, hfront, hfrontNe, rfl⟩
  · have hbegins := not_beginsStop_of_release hb hne
    simp only [beginsStop, List.any_eq_false, Bool.and_eq_true, decide_eq_true_eq,
      List.isPrefixOf_iff_prefix, not_and, not_lt] at hbegins
    -- a stop string this long would already be complete
    have hcomplete : b ++ (Reply.release stops (held ++ more)).2 = s :=
      hstarts.eq_of_length_le (hbegins s hs hstarts)
    have hinside : s <:+ held ++ more := by
      obtain ⟨before, hbefore⟩ := hb
      exact ⟨before, by rw [← hcomplete, ← List.append_assoc, hbefore, release_append]⟩
    exact hfree s hs hinside.isInfix
  · rw [List.append_assoc, release_append, ← List.append_assoc] at hstarts
    exact h front hfront hfrontNe s hs ((List.prefix_append _ more).trans hstarts)

/-- A reply that was given octets in which no stop string is complete. -/
structure Reading (stops : List (List Char)) (octets : List UInt8) (r : Reply) : Prop where
  stops_eq : r.stops = stops
  text_eq : r.shown ++ r.held = known octets
  waiting_eq : r.waiting = (decode [] octets).2
  free : Free stops (known octets)
  passed : Passed stops r.shown r.held

theorem reading_ofStops (stops : List String) :
    Reading (ofStops stops).stops [] (ofStops stops) where
  stops_eq := rfl
  text_eq := rfl
  waiting_eq := rfl
  free := free_nil fun _ => ne_nil_of_mem_ofStops
  passed := passed_nil []

namespace Reading

variable {octets more : List UInt8} {r : Reply}

theorem known_append_eq (h : Reading stops octets r) :
    known (octets ++ more) = r.shown ++ (r.held ++ (decode r.waiting more).1) := by
  rw [known_append, ← h.text_eq, ← h.waiting_eq, List.append_assoc]

theorem beforeStop_known (h : Reading stops octets r) :
    beforeStop stops (known (octets ++ more)) =
      (beforeStop stops (r.held ++ (decode r.waiting more).1)).map (r.shown ++ ·) := by
  rw [h.known_append_eq]
  apply beforeStop_append
  intro b hb hne
  exact h.passed.startsWithStop_eq_false (h.text_eq.symm ▸ h.free) hb hne

theorem push_eq (h : Reading stops octets r) :
    r.push more =
      match beforeStop stops (known (octets ++ more)) with
      | some text => (true, { r with shown := text, held := [], waiting := [] })
      | none =>
        (false, { r with
          shown := r.shown ++ (release stops (r.held ++ (decode r.waiting more).1)).1
          held := (release stops (r.held ++ (decode r.waiting more).1)).2
          waiting := (decode r.waiting more).2 }) := by
  rw [h.beforeStop_known, push, h.stops_eq]
  rcases decode r.waiting more with ⟨text, left⟩
  dsimp only
  cases beforeStop stops (r.held ++ text) <;> rfl

/-- A push tells of a stop string exactly when the text of all octets has one. -/
theorem push_fst (h : Reading stops octets r) :
    (r.push more).1 = (beforeStop stops (known (octets ++ more))).isSome := by
  rw [h.push_eq]
  cases beforeStop stops (known (octets ++ more)) <;> rfl

theorem shown_of_push (h : Reading stops octets r) {before : List Char}
    (hstop : beforeStop stops (known (octets ++ more)) = some before) :
    (r.push more).2.shown = before ∧ (r.push more).2.held = [] ∧ (r.push more).2.waiting = [] := by
  rw [h.push_eq, hstop]
  exact ⟨rfl, rfl, rfl⟩

theorem push (h : Reading stops octets r) (hne : ∀ s ∈ stops, s ≠ [])
    (hstop : (r.push more).1 = false) : Reading stops (octets ++ more) (r.push more).2 := by
  rw [h.push_fst, Option.isSome_eq_false_iff, Option.isNone_iff_eq_none] at hstop
  have hfree := (beforeStop_eq_none_iff hne).mp hstop
  have htail : Free stops (r.held ++ (decode r.waiting more).1) := by
    refine hfree.mono ?_
    rw [h.known_append_eq]
    exact (List.suffix_append _ _).isInfix
  rw [h.push_eq, hstop]
  refine ⟨h.stops_eq, ?_, ?_, hfree, h.passed.release htail⟩
  · rw [h.known_append_eq, List.append_assoc, release_append]
  · rw [h.waiting_eq, Text.Utf8.decode_append]

theorem flush_shown (h : Reading stops octets r) : r.flush.shown = lossy octets := by
  rw [lossy_eq, ← h.text_eq, ← h.waiting_eq]
  rfl

theorem shown_free (h : Reading stops octets r) : Free stops r.shown := by
  refine h.free.mono ?_
  rw [← h.text_eq]
  exact (List.prefix_append _ _).isInfix

end Reading

theorem shown_prefix_push (r : Reply) (octets : List UInt8) :
    r.shown <+: (r.push octets).2.shown := by
  simp only [push]
  split <;> exact List.prefix_append _ _

theorem shown_prefix_flush (r : Reply) : r.shown <+: r.flush.shown := by
  rw [flush, List.append_assoc]
  exact List.prefix_append _ _

/-- Octets that wait become U+FFFD in the end, which completes a stop string only if it is its last
character. -/
theorem free_lossy (hne : ∀ s ∈ stops, s ≠ []) (hlast : ∀ s ∈ stops, s.getLast? ≠ some replacement)
    {octets : List UInt8} (h : Free stops (known octets)) : Free stops (lossy octets) := by
  rw [lossy_eq, finish]
  split
  · rwa [List.append_nil]
  · intro s hs hinside
    rcases List.infix_concat_iff.mp hinside with hsuffix | hinside
    · obtain ⟨front, hfront⟩ := hsuffix
      apply hlast s hs
      have hgetLast := congrArg List.getLast? hfront
      rw [List.getLast?_append_of_ne_nil _ (hne s hs)] at hgetLast
      simpa using hgetLast
    · exact h s hs hinside

end Dialogue.Reply
