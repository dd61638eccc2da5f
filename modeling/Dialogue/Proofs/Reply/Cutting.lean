import Dialogue.Proofs.Reply.Pushes

/-!
One stream of octets, cut in two ways. Both cuts stop or neither does, and without a stop nothing
tells them apart. A stop string that is complete ends the reply although a longer one that began
before it may still come, so the texts of two stopped replies agree for every stream exactly when
no stop string is complete within another one.
-/

namespace Dialogue.Reply

open Text.Utf8 (encode known known_encode known_mono)

/-- A stop string has a beginning in which one is complete, though none that begins with it. -/
def Nested (stops : List String) : Prop :=
  ∃ stop ∈ stops, ∃ first, first <+: stop.toList ∧ first ≠ stop.toList ∧
    (∃ i, StopAt stops first i) ∧ ¬ StopAt stops first 0

variable {stops : List String}

theorem not_nested_singleton (stop : String) : ¬ Nested [stop] := by
  rintro ⟨whole, hwhole, first, hfirst, hne, ⟨i, other, hother, -, hprefix⟩, -⟩
  obtain rfl := List.mem_singleton.mp hwhole
  obtain rfl := List.mem_singleton.mp hother
  have hlength := hprefix.length_le
  rw [List.length_drop] at hlength
  exact hne (hfirst.eq_of_length_le (hlength.trans (Nat.sub_le _ _)))

theorem StopAt.mono {first text : List Char} {i : Nat} (h : StopAt stops first i)
    (hfirst : first <+: text) : StopAt stops text i := by
  obtain ⟨stop, hstop, hne, hprefix⟩ := h
  exact ⟨stop, hstop, hne, hprefix.trans (hfirst.drop i)⟩

theorem stopAt_drop_iff {text : List Char} {i j : Nat} :
    StopAt stops (text.drop i) j ↔ StopAt stops text (i + j) := by
  simp only [StopAt, List.drop_drop]

theorem Free.not_stopAt {text : List Char} (h : Free (ofStops stops).stops text) (i : Nat) :
    ¬ StopAt stops text i := by
  rintro ⟨stop, hstop, hne, hstarts⟩
  have hmem : stop.toList ∈ (ofStops stops).stops :=
    mem_stops_ofStops.mpr ⟨by simpa using hne, stop, hstop, rfl⟩
  exact h _ hmem (hstarts.isInfix.trans (List.drop_suffix i text).isInfix)

theorem IsHeld.eq {text held other : List Char} (h : IsHeld stops text held)
    (hother : IsHeld stops text other) : held = other := by
  have hle : held.length ≤ other.length := by
    rcases h.begins with rfl | hbegins
    · exact Nat.zero_le _
    · exact hother.longest held h.suffix hbegins
  have hge : other.length ≤ held.length := by
    rcases hother.begins with rfl | hbegins
    · exact Nat.zero_le _
    · exact h.longest other hother.suffix hbegins
  exact (List.suffix_of_suffix_length_le h.suffix hother.suffix hle).eq_of_length_le hge

theorem Reading.eq_of_held_eq {octets : List UInt8} {r other : Reply}
    (h : Reading (ofStops stops).stops octets r)
    (hother : Reading (ofStops stops).stops octets other) (hheld : r.held = other.held) :
    r = other := by
  have hstops := h.stops_eq.trans hother.stops_eq.symm
  have hwaiting := h.waiting_eq.trans hother.waiting_eq.symm
  have hshown := h.text_eq.trans hother.text_eq.symm
  rw [hheld, List.append_left_inj] at hshown
  cases r
  cases other
  rw [mk.injEq]
  exact ⟨hstops, hshown, hheld, hwaiting⟩

/-- How a reply ends that is given these octets in pushes: it takes all of them, or it stops when
some of them are taken. -/
inductive Fed (stops : List String) (octets : List UInt8) : Bool × Reply → Prop
  | whole {r : Reply} : Reading (ofStops stops).stops octets r →
      IsHeld stops (known octets) r.held → Fed stops octets (false, r)
  | stopped {taken : List UInt8} {i : Nat} : taken <+: octets →
      IsLeast {j | StopAt stops (known taken) j} i →
      Fed stops octets (true, { ofStops stops with shown := (known taken).take i })

theorem Reading.fed {octets : List UInt8} {r : Reply}
    (h : Reading (ofStops stops).stops octets r) (hheld : IsHeld stops (known octets) r.held)
    (chunks : List (List UInt8)) :
    Fed stops (octets ++ chunks.flatten) (r.pushUntilStop chunks) := by
  induction chunks generalizing octets r with
  | nil => simpa [Reply.pushUntilStop] using Fed.whole h hheld
  | cons chunk rest ih =>
      rw [Reply.pushUntilStop, List.flatten_cons, ← List.append_assoc]
      rcases hpush : r.push chunk with ⟨hit, next⟩
      cases hit with
      | true =>
          have hhit : (r.push chunk).1 = true := by rw [hpush]
          obtain ⟨i, hi, hnext⟩ := h.push_hit hhit
          rw [hpush] at hnext
          subst hnext
          exact .stopped (List.prefix_append _ _) hi
      | false =>
          have hmiss : (r.push chunk).1 = false := by rw [hpush]
          have hreading := h.push (fun _ => ne_nil_of_mem_ofStops) hmiss
          have hheldNext := h.isHeld hmiss
          rw [hpush] at hreading hheldNext
          exact ih hreading hheldNext

theorem fed_pushUntilStop (stops : List String) (chunks : List (List UInt8)) :
    Fed stops chunks.flatten ((ofStops stops).pushUntilStop chunks) := by
  refine (reading_ofStops stops).fed ⟨List.suffix_rfl, Or.inl rfl, ?_⟩ chunks
  intro other hother _
  exact hother.length_le

theorem take_of_later {first text : List Char} {i j : Nat} (hfirst : first <+: text)
    (hi : IsLeast {k | StopAt stops first k} i) (hj : IsLeast {k | StopAt stops text k} j) :
    text.take j <+: first.take i ∧ (¬ Nested stops → text.take j = first.take i) := by
  have hle : j ≤ i := hj.2 (hi.1.mono hfirst)
  have hlength : j ≤ first.length := hle.trans hi.1.lt.le
  have htake : text.take j = first.take j := by
    obtain ⟨more, rfl⟩ := hfirst
    exact List.take_append_of_le_length hlength
  rw [htake]
  refine ⟨List.take_prefix_take_left hle, fun hnested => ?_⟩
  rcases hle.eq_or_lt with rfl | hlt
  · rfl
  · -- the stop string at `j` was not complete when the one at `i` was
    have hnot : ¬ StopAt stops first j := fun h => absurd (hi.2 h) (not_le_of_gt hlt)
    obtain ⟨stop, hstop, hne, hprefix⟩ := hj.1
    have hshort : ¬ stop.toList <+: first.drop j := fun h => hnot ⟨stop, hstop, hne, h⟩
    refine absurd ⟨stop, hstop, first.drop j, ?_, ?_, ⟨i - j, ?_⟩, ?_⟩ hnested
    · exact (List.prefix_or_prefix_of_prefix hprefix (hfirst.drop j)).resolve_left hshort
    · exact fun hwhole => hshort (hwhole ▸ List.prefix_rfl)
    · rw [stopAt_drop_iff, Nat.add_sub_cancel' hle]
      exact hi.1
    · rwa [stopAt_drop_iff]

namespace Fed

variable {octets : List UInt8} {a b : Bool × Reply}

theorem hit_eq (ha : Fed stops octets a) (hb : Fed stops octets b) : a.1 = b.1 := by
  cases ha with
  | whole hreading =>
      cases hb with
      | whole => rfl
      | stopped htaken hi =>
          exact absurd (hi.1.mono (known_mono htaken)) (Free.not_stopAt hreading.free _)
  | stopped htaken hi =>
      cases hb with
      | whole hreading =>
          exact absurd (hi.1.mono (known_mono htaken)) (Free.not_stopAt hreading.free _)
      | stopped => rfl

theorem eq_of_miss (ha : Fed stops octets a) (hb : Fed stops octets b) (hmiss : a.1 = false) :
    a.2 = b.2 := by
  have hmiss' := ha.hit_eq hb ▸ hmiss
  cases ha with
  | stopped => exact Bool.noConfusion hmiss
  | whole hreading hheld =>
      cases hb with
      | stopped => exact Bool.noConfusion hmiss'
      | whole hother hheldOther =>
          exact hreading.eq_of_held_eq hother (hheld.eq hheldOther)

theorem exists_stopAt (ha : Fed stops octets a) (hhit : a.1 = true) :
    ∃ i, StopAt stops (known octets) i ∧ a.2.shown = (known octets).take i := by
  cases ha with
  | whole => exact Bool.noConfusion hhit
  | stopped htaken hi =>
      obtain ⟨more, hmore⟩ := known_mono htaken
      refine ⟨_, hi.1.mono ⟨more, hmore⟩, ?_⟩
      rw [← hmore, List.take_append_of_le_length hi.1.lt.le]

theorem shown_comparable (ha : Fed stops octets a) (hb : Fed stops octets b) :
    (a.2.shown <+: b.2.shown ∨ b.2.shown <+: a.2.shown) ∧
      (¬ Nested stops → a.2.shown = b.2.shown) := by
  cases hhit : a.1 with
  | false =>
      rw [ha.eq_of_miss hb hhit]
      exact ⟨Or.inl List.prefix_rfl, fun _ => rfl⟩
  | true =>
      have hhit' := ha.hit_eq hb ▸ hhit
      cases ha with
      | whole => exact Bool.noConfusion hhit
      | stopped htaken hi =>
          cases hb with
          | whole => exact Bool.noConfusion hhit'
          | stopped htaken' hj =>
              rcases List.prefix_or_prefix_of_prefix htaken htaken' with hearlier | hlater
              · obtain ⟨htake, heq⟩ := take_of_later (known_mono hearlier) hi hj
                exact ⟨Or.inr htake, fun hnested => (heq hnested).symm⟩
              · obtain ⟨htake, heq⟩ := take_of_later (known_mono hlater) hj hi
                exact ⟨Or.inl htake, heq⟩

end Fed

theorem shown_of_first_push {text : List Char} {i : Nat} (hi : StopAt stops text i)
    (rest : List (List UInt8)) :
    ∃ j, IsLeast {k | StopAt stops text k} j ∧
      ((ofStops stops).pushUntilStop (encode text :: rest)).2.shown = text.take j := by
  have hreading := reading_ofStops stops
  have hknown : known ([] ++ encode text) = text := known_encode text
  have hhit := hreading.push_iff.mpr ⟨i, hknown.symm ▸ hi⟩
  obtain ⟨j, hj, hnext⟩ := hreading.push_hit hhit
  rw [hknown] at hj hnext
  refine ⟨j, hj, ?_⟩
  rw [pushUntilStop]
  rcases hpush : (ofStops stops).push (encode text) with ⟨hit, next⟩
  rw [hpush] at hhit hnext
  cases hhit
  exact congrArg shown hnext

/-- The stream is a stop string that another one is nested in, as one push, and cut where that one
is complete. -/
theorem exists_cuts_of_nested (h : Nested stops) :
    ∃ first second : List (List UInt8), first.flatten = second.flatten ∧
      ((ofStops stops).pushUntilStop first).2.shown ≠
        ((ofStops stops).pushUntilStop second).2.shown := by
  obtain ⟨stop, hstop, first, ⟨rest, hrest⟩, -, ⟨i, hi⟩, hnot⟩ := h
  have hne : stop ≠ "" := by
    rintro rfl
    obtain ⟨rfl, -⟩ := List.append_eq_nil_iff.mp hrest
    exact absurd hi.lt (Nat.not_lt_zero i)
  have hwhole : StopAt stops stop.toList 0 := ⟨stop, hstop, hne, List.prefix_rfl⟩
  obtain ⟨j, hj, hshown⟩ := shown_of_first_push hwhole []
  obtain ⟨k, hk, hshown'⟩ := shown_of_first_push hi [encode rest]
  refine ⟨[encode stop.toList], [encode first, encode rest], ?_, ?_⟩
  · simp [← hrest, encode]
  · have hzero : j = 0 := Nat.le_zero.mp (hj.2 hwhole)
    have hpos : k ≠ 0 := fun hk0 => hnot (hk0 ▸ hk.1)
    rw [hshown, hshown', hzero]
    intro hnil
    have hlength := congrArg List.length hnil
    rw [List.take_zero, List.length_nil, List.length_take_of_le hk.1.lt.le] at hlength
    exact hpos hlength.symm

/-- Two cuts of one stream both stop or neither does. Without a stop they cannot be told apart; with
one, each text ends where a stop string begins, one of them begins the other, and that they are
equal whatever the stream is means that no stop string is nested in another. -/
theorem cuts_agree (stops : List String) :
    (∀ first second : List (List UInt8), first.flatten = second.flatten →
      let a := (ofStops stops).pushUntilStop first
      let b := (ofStops stops).pushUntilStop second
      a.1 = b.1 ∧
        (a.1 = false → a.2.text = b.2.text ∧ a.2.flush.text = b.2.flush.text) ∧
        (a.1 = true →
          ∃ i, StopAt stops (known first.flatten) i ∧
            a.2.text = String.ofList ((known first.flatten).take i)) ∧
        (a.2.text.toList <+: b.2.text.toList ∨ b.2.text.toList <+: a.2.text.toList)) ∧
    ((∀ first second : List (List UInt8), first.flatten = second.flatten →
        ((ofStops stops).pushUntilStop first).2.text =
          ((ofStops stops).pushUntilStop second).2.text) ↔
      ¬ Nested stops) := by
  have hfed := fed_pushUntilStop stops
  refine ⟨fun first second hstream => ?_, fun hequal hnested => ?_,
    fun hnested first second hstream => ?_⟩
  · intro a b
    have ha : Fed stops first.flatten a := hfed first
    have hb : Fed stops first.flatten b := hstream ▸ hfed second
    refine ⟨ha.hit_eq hb, fun hmiss => ?_, fun hhit => ?_, ?_⟩
    · rw [ha.eq_of_miss hb hmiss]
      exact ⟨rfl, rfl⟩
    · obtain ⟨i, hi, hshown⟩ := ha.exists_stopAt hhit
      exact ⟨i, hi, congrArg String.ofList hshown⟩
    · simpa [text] using (ha.shown_comparable hb).1
  · obtain ⟨first, second, hstream, hne⟩ := exists_cuts_of_nested hnested
    exact hne (by simpa [text] using congrArg String.toList (hequal first second hstream))
  · have hb : Fed stops first.flatten _ := hstream ▸ hfed second
    exact congrArg String.ofList (((hfed first).shown_comparable hb).2 hnested)

theorem cuts_agree_split :
    let stops := ["</s>"]
    let first := ["Hi<".toUTF8.toList, "/s> there".toUTF8.toList]
    let second := ["Hi</".toUTF8.toList, "s".toUTF8.toList, "> there".toUTF8.toList]
    first.flatten = second.flatten ∧
      ((ofStops stops).pushUntilStop first).1 = ((ofStops stops).pushUntilStop second).1 ∧
      ((ofStops stops).pushUntilStop first).2.text = "Hi" ∧
      ((ofStops stops).pushUntilStop second).2.text = "Hi" := by
  intro stops first second
  have hstream : first.flatten = second.flatten := by decide +kernel
  have hfirst : ((ofStops stops).pushUntilStop first).2.text = "Hi" := by decide +kernel
  have hequal := (cuts_agree stops).2.mpr (not_nested_singleton "</s>") first second hstream
  exact ⟨hstream, ((cuts_agree stops).1 first second hstream).1, hfirst, hequal ▸ hfirst⟩

/-- A shorter stop string ends the reply when it is complete, so it counts whether the rest of a
longer one that began before it came in the same push. -/
theorem cuts_differ_nested :
    let stops := ["abcd", "b"]
    let first := ["xabcd".toUTF8.toList]
    let second := ["xab".toUTF8.toList, "cd".toUTF8.toList]
    let a := (ofStops stops).pushUntilStop first
    let b := (ofStops stops).pushUntilStop second
    first.flatten = second.flatten ∧ a.2.text = "x" ∧ b.2.text = "xa" ∧
      ¬ ((a.1 = true ∧ b.1 = true ∧ a.2.text = b.2.text) ∨
        (a.1 = false ∧ b.1 = false ∧ a.2.text = b.2.text ∧ a.2.flush.text = b.2.flush.text)) := by
  decide +kernel

end Dialogue.Reply
