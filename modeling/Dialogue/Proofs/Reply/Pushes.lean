import Dialogue.Proofs.Reply.Reading
import Dialogue.Proofs.Text.Offsets

namespace Dialogue.Text.Utf8

theorem repaired_known (octets : List UInt8) :
    Repaired octets (known octets) (decode [] octets).2 :=
  repaired_iff.mpr rfl

theorem known_encode (text : List Char) : known (encode text) = text := by
  rw [known, (repaired_encode text).decode_eq]

theorem known_mono {first octets : List UInt8} (h : first <+: octets) :
    known first <+: known octets := by
  obtain ⟨more, rfl⟩ := h
  rw [known_append]
  exact List.prefix_append _ _

end Dialogue.Text.Utf8

namespace Dialogue.Reply

open Text.Utf8 (Repaired decode known lossy lossy_eq repaired_known replacement)

/-- What can be done to a reply. -/
inductive Act where
  | push (octets : List UInt8)
  | flush
  | clear

def perform (r : Reply) : Act → Bool × Reply
  | .push octets => r.push octets
  | .flush => (false, r.flush)
  | .clear => (false, r.clear)

def run (r : Reply) : List Act → List Bool × Reply
  | [] => ([], r)
  | act :: rest =>
    let (hit, next) := r.perform act
    (hit :: (next.run rest).1, (next.run rest).2)

/-- Pushes one after another, up to the one that completes a stop string. -/
def pushUntilStop (r : Reply) : List (List UInt8) → Bool × Reply
  | [] => (false, r)
  | octets :: rest =>
    match r.push octets with
    | (true, next) => (true, next)
    | (false, next) => next.pushUntilStop rest

/-- A stop string that is not empty stands at this place of a text. -/
def StopAt (stops : List String) (text : List Char) (i : Nat) : Prop :=
  ∃ stop ∈ stops, stop ≠ "" ∧ stop.toList <+: text.drop i

/-- A text that is not the whole of a stop string, but begins it. -/
def BeginsStop (stops : List String) (text : List Char) : Prop :=
  ∃ stop ∈ stops, stop ≠ "" ∧ text <+: stop.toList ∧ text ≠ stop.toList

/-- The longest end of a text that begins a stop string. -/
structure IsHeld (stops : List String) (text held : List Char) : Prop where
  suffix : held <:+ text
  begins : held = [] ∨ BeginsStop stops held
  longest : ∀ other, other <:+ text → BeginsStop stops other → other.length ≤ held.length

section Stops

variable {stops : List String} {text : List Char}

theorem stopAt_iff {i : Nat} :
    StopAt stops text i ↔ startsWithStop (ofStops stops).stops (text.drop i) = true := by
  simp only [startsWithStop_ofStops, List.any_eq_true, Bool.and_eq_true, decide_eq_true_eq,
    List.isPrefixOf_iff_prefix, StopAt]

theorem StopAt.lt {i : Nat} (h : StopAt stops text i) : i < text.length := by
  obtain ⟨stop, -, hne, hprefix⟩ := h
  by_contra hlength
  rw [List.drop_eq_nil_of_le (by omega), List.prefix_nil, String.toList_eq_nil_iff] at hprefix
  exact hne hprefix

theorem firstStop_eq_some_iff {i : Nat} :
    firstStop stops text = some i ↔ IsLeast {j | StopAt stops text j} i := by
  have hstands : ∀ j, (stops.any fun s => s ≠ "" && s.toList.isPrefixOf (text.drop j)) = true ↔
      StopAt stops text j := by
    intro j
    rw [stopAt_iff, startsWithStop_ofStops]
  rw [firstStop, find_range_eq_some_iff fun j hj => ((hstands j).mp hj).lt]
  simp only [hstands]

theorem isSome_firstStop_iff :
    (firstStop stops text).isSome = true ↔ ∃ i, StopAt stops text i := by
  rw [firstStop, List.find?_isSome]
  constructor
  · rintro ⟨i, -, hi⟩
    exact ⟨i, by rwa [stopAt_iff, startsWithStop_ofStops]⟩
  · rintro ⟨i, hi⟩
    exact ⟨i, List.mem_range.mpr hi.lt, by rwa [stopAt_iff, startsWithStop_ofStops] at hi⟩

theorem beginsStop_ofStops :
    beginsStop (ofStops stops).stops text = true ↔ BeginsStop stops text := by
  simp only [beginsStop, List.any_eq_true, mem_stops_ofStops, Bool.and_eq_true,
    List.isPrefixOf_iff_prefix, decide_eq_true_eq, BeginsStop]
  constructor
  · rintro ⟨s, ⟨hne, stop, hstop, rfl⟩, hbegins, hlonger⟩
    exact ⟨stop, hstop, by simpa using hne, hbegins, fun h => by simp [h] at hlonger⟩
  · rintro ⟨stop, hstop, hne, hbegins, hproper⟩
    refine ⟨stop.toList, ⟨by simpa using hne, stop, hstop, rfl⟩, hbegins, ?_⟩
    exact lt_of_le_of_ne hbegins.length_le fun h => hproper (hbegins.eq_of_length h)

theorem release_begins (stops : List (List Char)) (text : List Char) :
    (release stops text).2 = [] ∨ beginsStop stops (release stops text).2 = true := by
  induction text with
  | nil => exact Or.inl rfl
  | cons c text ih => by_cases h : beginsStop stops (c :: text) <;> simp [release, h, ih]

end Stops

section Pushing

variable {stops : List String} {octets more : List UInt8} {r : Reply}

theorem Reading.pushUntilStop (h : Reading (ofStops stops).stops octets r)
    {chunks : List (List UInt8)} (hnone : (r.pushUntilStop chunks).1 = false) :
    Reading (ofStops stops).stops (octets ++ chunks.flatten) (r.pushUntilStop chunks).2 := by
  induction chunks generalizing octets r with
  | nil => simpa [Reply.pushUntilStop] using h
  | cons chunk rest ih =>
      rw [Reply.pushUntilStop] at hnone ⊢
      rcases hpush : r.push chunk with ⟨hit, next⟩
      rw [hpush] at hnone
      cases hit with
      | true => exact absurd hnone Bool.noConfusion
      | false =>
          have hmiss : (r.push chunk).1 = false := by rw [hpush]
          have hnext := h.push (fun _ => ne_nil_of_mem_ofStops) hmiss
          rw [hpush] at hnext
          rw [List.flatten_cons, ← List.append_assoc]
          exact ih hnext hnone

theorem Reading.push_iff (h : Reading (ofStops stops).stops octets r) :
    (r.push more).1 = true ↔ ∃ i, StopAt stops (known (octets ++ more)) i := by
  rw [h.push_fst, beforeStop_ofStops, Option.isSome_map, isSome_firstStop_iff]

theorem push_eq_of_hit {octets : List UInt8} {r : Reply} (h : (r.push octets).1 = true) :
    (r.push octets).2 = { stops := r.stops, shown := (r.push octets).2.shown } := by
  simp only [push] at h ⊢
  split
  · rfl
  · rename_i hnone
    simp [hnone] at h

theorem Reading.push_hit (h : Reading (ofStops stops).stops octets r)
    (hhit : (r.push more).1 = true) :
    ∃ i, IsLeast {j | StopAt stops (known (octets ++ more)) j} i ∧
      (r.push more).2 = { ofStops stops with shown := (known (octets ++ more)).take i } := by
  obtain ⟨i, hi⟩ := Option.isSome_iff_exists.mp (isSome_firstStop_iff.mpr (h.push_iff.mp hhit))
  have hstop : beforeStop (ofStops stops).stops (known (octets ++ more)) =
      some ((known (octets ++ more)).take i) := by rw [beforeStop_ofStops, hi, Option.map_some]
  refine ⟨i, firstStop_eq_some_iff.mp hi, ?_⟩
  rw [push_eq_of_hit hhit, (h.shown_of_push hstop).1, h.stops_eq]
  rfl

theorem Reading.isHeld (h : Reading (ofStops stops).stops octets r)
    (hnone : (r.push more).1 = false) :
    IsHeld stops (known (octets ++ more)) (r.push more).2.held := by
  have hnext := h.push (fun _ => ne_nil_of_mem_ofStops) hnone
  refine ⟨?_, ?_, ?_⟩
  · rw [← hnext.text_eq]
    exact List.suffix_append _ _
  · rw [h.push_fst, Option.isSome_eq_false_iff, Option.isNone_iff_eq_none] at hnone
    rw [h.push_eq, hnone, ← beginsStop_ofStops]
    exact release_begins _ _
  · intro other hother hbegins
    obtain ⟨stop, hstop, hne, hprefix, -⟩ := hbegins
    rw [← hnext.text_eq] at hother
    rcases suffix_append_cases hother with hheld | ⟨front, hfront, hfrontNe, rfl⟩
    · exact hheld.length_le
    · have hmem : stop.toList ∈ (ofStops stops).stops :=
        mem_stops_ofStops.mpr ⟨by simpa using hne, stop, hstop, rfl⟩
      exact absurd hprefix (hnext.passed front hfront hfrontNe _ hmem)

end Pushing

section Settled

variable {stops : List String} {r : Reply}

/-- A reply behind a text that was shown before it. -/
def behind (kept : List Char) (r : Reply) : Reply :=
  { r with shown := kept ++ r.shown }

theorem text_behind (kept : List Char) (r : Reply) :
    (r.behind kept).text = String.ofList kept ++ r.text :=
  String.ofList_append

theorem perform_behind (kept : List Char) (r : Reply) {act : Act} (hact : act ≠ .clear) :
    (r.behind kept).perform act = ((r.perform act).1, (r.perform act).2.behind kept) := by
  cases act with
  | push octets =>
      simp only [perform, push, behind]
      split <;> simp
  | flush => simp [perform, flush, behind]
  | clear => exact absurd rfl hact

theorem run_behind (kept : List Char) (r : Reply) {acts : List Act} (hacts : .clear ∉ acts) :
    (r.behind kept).run acts = ((r.run acts).1, (r.run acts).2.behind kept) := by
  induction acts generalizing r with
  | nil => rfl
  | cons act rest ih =>
      rw [List.mem_cons, not_or] at hacts
      simp only [run, perform_behind kept r (Ne.symm hacts.1), ih _ hacts.2]

theorem stops_perform (r : Reply) (act : Act) : (r.perform act).2.stops = r.stops := by
  cases act with
  | push octets =>
      simp only [perform, push]
      split <;> rfl
  | flush | clear => rfl

theorem stops_run (r : Reply) (acts : List Act) : (r.run acts).2.stops = r.stops := by
  induction acts generalizing r with
  | nil => rfl
  | cons act rest ih => rw [run, ih, stops_perform]

/-- A reply that nothing waits in: a stop string was completed, or all was shown or dropped. -/
inductive Settles (r : Reply) : Reply → Prop
  | stopped {octets : List UInt8} : (r.push octets).1 = true → Settles r (r.push octets).2
  | flushed : Settles r r.flush
  | cleared : Settles r r.clear

theorem Settles.eq_behind {next : Reply} (h : Settles r next)
    (hstops : r.stops = (ofStops stops).stops) : next = (ofStops stops).behind next.shown := by
  cases h with
  | stopped hhit =>
      rw [push_eq_of_hit hhit, hstops]
      simp [behind, ofStops]
  | flushed => simp [flush, behind, ofStops, hstops]
  | cleared => simp [clear, behind, ofStops, hstops]

end Settled

/-- The pushes up to the first that completes a stop string, against the text of all their octets:
whether one stands in it, where the first one begins, which end may still become one, and what a
flush adds. A reply that was settled goes on as a new one behind its text. -/
theorem pushes_read_at_once (stops : List String) :
    (∀ (earlier : List (List UInt8)) (octets : List UInt8),
      ((ofStops stops).pushUntilStop earlier).1 = false →
        let pushed := earlier.flatten ++ octets
        let hit := (((ofStops stops).pushUntilStop earlier).2.push octets).1
        let r := (((ofStops stops).pushUntilStop earlier).2.push octets).2
        ∃ text left, Repaired pushed text left ∧
          (hit = true ↔ ∃ i, StopAt stops text i) ∧
          (hit = true →
            ∃ i, IsLeast {j | StopAt stops text j} i ∧ r.text = String.ofList (text.take i)) ∧
          (hit = false →
            (∃ held, IsHeld stops text held ∧ r.text ++ String.ofList held = String.ofList text) ∧
              r.flush.text = String.ofList (lossy pushed) ∧
              lossy pushed = text ++ if left = [] then [] else [replacement])) ∧
    (∀ (acts : List Act) (next : Reply), Settles ((ofStops stops).run acts).2 next →
      ∀ later, .clear ∉ later →
        (next.run later).1 = ((ofStops stops).run later).1 ∧
          (next.run later).2.text = next.text ++ ((ofStops stops).run later).2.text) := by
  constructor
  · intro earlier octets hnone pushed hit r
    have hreading := (reading_ofStops stops).pushUntilStop hnone
    rw [List.nil_append] at hreading
    refine ⟨known pushed, (decode [] pushed).2, repaired_known pushed, hreading.push_iff, ?_, ?_⟩
    · intro hhit
      obtain ⟨i, hi, hnext⟩ := hreading.push_hit hhit
      exact ⟨i, hi, congrArg text hnext⟩
    · intro hmiss
      have hnext := hreading.push (fun _ => ne_nil_of_mem_ofStops) hmiss
      refine ⟨⟨_, hreading.isHeld hmiss, ?_⟩, congrArg String.ofList hnext.flush_shown,
        lossy_eq pushed⟩
      rw [text, ← String.ofList_append, hnext.text_eq]
  · intro acts next hsettles later hlater
    have hrun := run_behind next.shown (ofStops stops) hlater
    rw [← hsettles.eq_behind (stops_run (ofStops stops) acts)] at hrun
    rw [hrun]
    exact ⟨rfl, text_behind next.shown _⟩

theorem pushes_read_at_once_split :
    let stops := ["</s>", "/>"]
    let earlier := ["Hi".toUTF8.toList, "<".toUTF8.toList]
    ((ofStops stops).pushUntilStop earlier).1 = false ∧
      (((ofStops stops).pushUntilStop earlier).2.push "/s>!".toUTF8.toList).1 = true ∧
      (∃ text left i, Repaired (earlier.flatten ++ "/s>!".toUTF8.toList) text left ∧
        IsLeast {j | StopAt stops text j} i ∧
        (((ofStops stops).pushUntilStop earlier).2.push "/s>!".toUTF8.toList).2.text =
          String.ofList (text.take i)) ∧
      ((ofStops stops).clear.run [.push "b".toUTF8.toList]).2.text =
        (ofStops stops).clear.text ++ ((ofStops stops).run [.push "b".toUTF8.toList]).2.text := by
  intro stops earlier
  have hnone : ((ofStops stops).pushUntilStop earlier).1 = false := by decide +kernel
  have hhit : (((ofStops stops).pushUntilStop earlier).2.push "/s>!".toUTF8.toList).1 = true := by
    decide +kernel
  obtain ⟨text, left, hrepaired, -, hcut, -⟩ :=
    (pushes_read_at_once stops).1 earlier "/s>!".toUTF8.toList hnone
  obtain ⟨i, hi, htext⟩ := hcut hhit
  refine ⟨hnone, hhit, ⟨text, left, i, hrepaired, hi, htext⟩, ?_⟩
  exact ((pushes_read_at_once stops).2 [] _ .cleared [.push "b".toUTF8.toList] (by simp)).2

end Dialogue.Reply
