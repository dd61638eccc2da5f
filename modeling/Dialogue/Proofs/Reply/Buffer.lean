import Dialogue.Session.ReplyBuffer
import Dialogue.Proofs.Reply.Pushes
import Dialogue.Proofs.Text.Faults

/-!
A reply in octets against the reply in characters that it lays out. Every offset that an operation
computes is between two characters of the text, so no operation lacks a result, and the results are
laid out as those of the reply in characters.
-/

namespace Dialogue.Reply

open Text.Utf8 (Unfinished unfinished_decode unfinished_nil)

variable {r : Reply}

theorem release_snd_eq (stops : List (List Char)) (text : List Char) :
    (release stops text).2 =
      ((List.range text.length).find? fun i => beginsStop stops (text.drop i)).elim []
        text.drop := by
  induction text with
  | nil => rfl
  | cons c text ih =>
      rw [release, List.length_cons, List.range_succ_eq_map, List.find?_cons]
      by_cases h : beginsStop stops (c :: text) = true
      · simp [h]
      · rw [if_neg h, ih]
        simp only [List.drop_zero, h, List.find?_map, Option.elim_map]
        rfl

theorem unfinished_perform (h : Unfinished r.waiting) (act : Act) :
    Unfinished (r.perform act).2.waiting := by
  cases act with
  | push octets =>
      simp only [perform, push]
      split
      · exact unfinished_nil
      · exact unfinished_decode h
  | flush | clear => exact unfinished_nil

theorem unfinished_run (h : Unfinished r.waiting) (acts : List Act) :
    Unfinished (r.run acts).2.waiting := by
  induction acts generalizing r with
  | nil => exact h
  | cons act rest ih => exact ih (unfinished_perform h act)

theorem shown_prefix_perform (r : Reply) {act : Act} (hact : act ≠ .clear) :
    r.shown <+: (r.perform act).2.shown := by
  cases act with
  | push octets => exact shown_prefix_push r octets
  | flush => exact shown_prefix_flush r
  | clear => exact absurd rfl hact

end Dialogue.Reply

namespace Dialogue.ReplyBuffer

open Text.Utf8
open Reply (Act StopAt beforeStop beforeStop_ofStops beforeStop_prefix beginsStop firstStop
  firstStop_eq_some_iff isSome_firstStop_iff ne_nil_of_mem_ofStops release release_append
  release_snd_eq shown_prefix_perform startsWithStop_iff stopAt_iff stops_perform stops_run
  unfinished_perform unfinished_run)

section Decoding

theorem decodeRound_cases (b : ReplyBuffer) :
    b.decodeRound = some (.done { b with
      text := b.text ++ encode (decode [] b.pending).1
      pending := (decode [] b.pending).2 }) ∨
    ∃ known more,
      b.decodeRound = some (.again { b with
        text := b.text ++ encode (known ++ [replacement])
        pending := more }) ∧
      decode [] b.pending = (known ++ replacement :: (decode [] more).1, (decode [] more).2) := by
  obtain ⟨text, pending, shown, stops⟩ := b
  -- the cases are those of the first fault of the pending octets
  have hchecked := checked_fault pending
  generalize hfault : fault? pending = fault at hchecked
  cases hchecked with
  | whole known =>
      left
      simp [decodeRound, hfault, (repaired_encode known).decode_eq]
  | @ends known rest hne hrest =>
      left
      have hdecode := ((Repaired.left hrest).encode_append known).decode_eq
      simp [decodeRound, hfault, hdecode, takeOctets?, dropOctets?, fault_encode]
  | @refused known run more hrefused =>
      refine Or.inr ⟨known, more, ?_, ?_⟩
      · simp [decodeRound, hfault, takeOctets?, dropOctets?, fault_encode, encode_append]
      · have hmore : Repaired more (decode [] more).1 (decode [] more).2 := repaired_iff.mpr rfl
        exact ((hrefused.repaired hmore).encode_append known).decode_eq

theorem decodePending_of_done {b next : ReplyBuffer} (h : b.decodeRound = some (.done next)) :
    b.decodePending = some next := by
  rw [decodePending]
  split <;> simp_all

theorem decodePending_of_again {b next : ReplyBuffer} (h : b.decodeRound = some (.again next)) :
    b.decodePending = next.decodePending := by
  rw [decodePending]
  split <;> simp_all

/-- Pending octets are read to their end, as if one by one. -/
theorem decodePending_eq (b : ReplyBuffer) :
    b.decodePending = some { b with
      text := b.text ++ encode (decode [] b.pending).1
      pending := (decode [] b.pending).2 } := by
  rcases decodeRound_cases b with hdone | ⟨known, more, hagain, hdecode⟩
  · exact decodePending_of_done hdone
  · rw [decodePending_of_again hagain, decodePending_eq, hdecode]
    simp [encode]
termination_by b.pending.length
decreasing_by exact length_of_decodeRound hagain

end Decoding

/-- A reply as it lies in memory. -/
def layout (r : Reply) : ReplyBuffer where
  text := encode (r.shown ++ r.held)
  pending := r.waiting
  shown := (encode r.shown).length
  stops := r.stops.map encode

section Layout

variable {stops : List String} {r : Reply}

theorem ofStops_eq_layout (stops : List String) : ofStops stops = layout (Reply.ofStops stops) := by
  simp only [ofStops, layout, Reply.ofStops, List.filter_map, List.map_map, Function.comp_def,
    isEmpty_encode]
  rfl

theorem read_layout (r : Reply) : (layout r).read = some (encode r.shown) := by
  rw [read, layout, ← offset_length_append r.shown r.held, sliceTo_offset (by simp),
    List.take_left]

theorem sliceFrom_layout (r : Reply) :
    sliceFrom? (layout r).text (layout r).shown = some (encode r.held) := by
  rw [layout, ← offset_length_append r.shown r.held, sliceFrom_offset (by simp), List.drop_left]

theorem decodePending_layout (hwaiting : Unfinished r.waiting) (octets : List UInt8) :
    decodePending { layout r with pending := r.waiting ++ octets } =
      some (layout { r with
        held := r.held ++ (decode r.waiting octets).1
        waiting := (decode r.waiting octets).2 }) := by
  have hdecode := decode_append [] r.waiting octets
  rw [decode_of_unfinished hwaiting] at hdecode
  rw [decodePending_eq, hdecode]
  simp [layout, encode_append]

theorem mem_stops_encode {text : List Char} {k : Nat} :
    (∃ part ∈ (Reply.ofStops stops).stops.map encode, part <+: (encode text).drop k) ↔
      k ∈ offset text '' {i | StopAt stops text i} := by
  simp only [List.mem_map, Set.mem_image, Set.mem_ofPred_eq, stopAt_iff, startsWithStop_iff]
  constructor
  · rintro ⟨_, ⟨s, hs, rfl⟩, hprefix⟩
    obtain ⟨i, -, hi, hstarts⟩ :=
      (encode_prefix_drop_iff (ne_nil_of_mem_ofStops hs)).mp hprefix
    exact ⟨i, ⟨s, hs, hstarts⟩, hi⟩
  · rintro ⟨i, ⟨s, hs, hstarts⟩, rfl⟩
    refine ⟨_, ⟨s, hs, rfl⟩, ?_⟩
    rw [drop_offset]
    exact encode_prefix_iff.mpr hstarts

theorem min_find_encode (stops : List String) (text : List Char) :
    (((Reply.ofStops stops).stops.map encode).filterMap (find? (encode text))).min? =
      (firstStop stops text).map (offset text) := by
  have hne : ∀ part ∈ (Reply.ofStops stops).stops.map encode, part ≠ [] := by
    intro part hpart
    obtain ⟨s, hs, rfl⟩ := List.mem_map.mp hpart
    exact encode_eq_nil_iff.not.mpr (ne_nil_of_mem_ofStops hs)
  have hplaces : ∀ k,
      (((Reply.ofStops stops).stops.map encode).filterMap (find? (encode text))).min? = some k ↔
        IsLeast (offset text '' {i | StopAt stops text i}) k := by
    intro k
    rw [min_find_eq_some_iff hne]
    simp only [mem_stops_encode]
    rfl
  cases hfirst : firstStop stops text with
  | none =>
      rw [Option.map_none, Option.eq_none_iff_forall_ne_some]
      intro k hk
      obtain ⟨⟨i, hi, -⟩, -⟩ := (hplaces k).mp hk
      have hsome := isSome_firstStop_iff.mpr ⟨i, hi⟩
      rw [hfirst] at hsome
      exact Bool.noConfusion hsome
  | some i =>
      exact (hplaces _).mpr ((offset_mono text).map_isLeast (firstStop_eq_some_iff.mp hfirst))

theorem findStop_layout (hstops : r.stops = (Reply.ofStops stops).stops) :
    (layout r).findStop =
      some ((beforeStop r.stops r.held).map fun before => (encode (r.shown ++ before)).length) := by
  rw [findStop, sliceFrom_layout, Option.bind_eq_bind, Option.bind_some, layout, hstops,
    min_find_encode, beforeStop_ofStops, Option.map_map, Option.map_map]
  congr 2
  funext i
  simp [encode_append, offset]

theorem beginsStop_encode (stops : List (List Char)) (text : List Char) :
    ((stops.map encode).any fun s =>
      (encode text).length < s.length && (encode text).isPrefixOf s) = beginsStop stops text := by
  rw [beginsStop, List.any_map]
  congr 1
  funext s
  rw [Function.comp_apply, Bool.eq_iff_iff]
  simp only [Bool.and_eq_true, decide_eq_true_eq, List.isPrefixOf_iff_prefix, encode_prefix_iff]
  constructor
  · rintro ⟨hlonger, hbegins⟩
    exact ⟨hbegins, (length_encode_lt_iff hbegins).mp hlonger⟩
  · rintro ⟨hbegins, hlonger⟩
    exact ⟨(length_encode_lt_iff hbegins).mpr hlonger, hbegins⟩

theorem heldLength_layout (r : Reply) :
    (layout r).heldLength = some (encode (release r.stops r.held).2).length := by
  rw [heldLength, sliceFrom_layout, Option.bind_eq_bind, Option.bind_some, slices_encode,
    Option.bind_eq_bind, Option.bind_some, List.find?_map, release_snd_eq]
  simp only [layout, Function.comp_def, beginsStop_encode]
  cases (List.range r.held.length).find? fun i => beginsStop r.stops (r.held.drop i) <;> rfl

theorem truncate_encode {first text : List Char} (h : first <+: text) :
    truncate? (encode text) (encode first).length = some (encode first) := by
  obtain ⟨rest, rfl⟩ := h
  rw [truncate?, ← offset_length_append first rest, if_pos (offset_le_length _ _),
    sliceTo_offset (by simp), List.take_left]

theorem subtract_encode (first rest : List Char) :
    subtract? (encode (first ++ rest)).length (encode rest).length =
      some (encode first).length := by
  simp [subtract?, encode_append]

theorem push_layout (hstops : r.stops = (Reply.ofStops stops).stops)
    (hwaiting : Unfinished r.waiting) (octets : List UInt8) :
    (layout r).push octets = some ((r.push octets).1, layout (r.push octets).2) := by
  have hpending := decodePending_layout hwaiting octets
  rw [push, Reply.push, show (layout r).pending = r.waiting from rfl, hpending]
  rcases decode r.waiting octets with ⟨known, left⟩
  have hfind := findStop_layout (r := { r with held := r.held ++ known, waiting := left }) hstops
  have hheld := heldLength_layout { r with held := r.held ++ known, waiting := left }
  simp only [Option.bind_eq_bind, Option.bind_some, hfind]
  cases hstop : beforeStop r.stops (r.held ++ known) with
  | some before =>
      have hbefore : before <+: r.held ++ known := beforeStop_prefix hstop
      have htruncate : truncate? (encode (r.shown ++ (r.held ++ known)))
          (encode (r.shown ++ before)).length = some (encode (r.shown ++ before)) :=
        truncate_encode ((List.prefix_append_right_inj _).mpr hbefore)
      simp [layout, htruncate]
  | none =>
      -- what is held back is an end of the text, and the rest of it is shown
      have hsubtract := subtract_encode (r.shown ++ (release r.stops (r.held ++ known)).1)
        (release r.stops (r.held ++ known)).2
      rw [List.append_assoc, release_append] at hsubtract
      simp only [Option.map_none, hheld, Option.bind_some]
      simp [layout, hsubtract, release_append]

theorem flush_layout (hwaiting : Unfinished r.waiting) :
    (layout r).flush = layout r.flush := by
  by_cases hnone : r.waiting = []
  · simp [flush, layout, Reply.flush, finish, hnone]
  · simp [flush, layout, Reply.flush, hnone, lossy_unfinished hwaiting, encode_append]

end Layout

section Running

def perform (b : ReplyBuffer) : Act → Option (Bool × ReplyBuffer)
  | .push octets => b.push octets
  | .flush => some (false, b.flush)
  | .clear => some (false, b.clear)

def run (b : ReplyBuffer) : List Act → Option (List Bool × ReplyBuffer)
  | [] => some ([], b)
  | act :: rest => do
    let (hit, next) ← b.perform act
    let (hits, last) ← next.run rest
    some (hit :: hits, last)

variable {stops : List String} {r : Reply}

theorem perform_layout (hstops : r.stops = (Reply.ofStops stops).stops)
    (hwaiting : Unfinished r.waiting) (act : Act) :
    (layout r).perform act = some ((r.perform act).1, layout (r.perform act).2) := by
  cases act with
  | push octets => exact push_layout hstops hwaiting octets
  | flush => rw [perform, flush_layout hwaiting, Reply.perform]
  | clear => rfl

theorem run_layout (hstops : r.stops = (Reply.ofStops stops).stops)
    (hwaiting : Unfinished r.waiting) (acts : List Act) :
    (layout r).run acts = some ((r.run acts).1, layout (r.run acts).2) := by
  induction acts generalizing r with
  | nil => rfl
  | cons act rest ih =>
      have hnext := ih ((stops_perform r act).trans hstops) (unfinished_perform hwaiting act)
      simp [run, perform_layout hstops hwaiting act, hnext, Reply.run]

/-- What is shown ends between two characters, and at most one character is not complete. -/
structure InBounds (b : ReplyBuffer) : Prop where
  shown_le : b.shown ≤ b.text.length
  boundary : isBoundary b.text b.shown = true
  unfinished : Unfinished b.pending
  length_le : b.pending.length ≤ 3

theorem inBounds_layout (h : Unfinished r.waiting) : InBounds (layout r) where
  shown_le := by
    rw [layout, encode_append, List.length_append]
    exact Nat.le_add_right _ _
  boundary := by
    rw [layout, ← offset_length_append r.shown r.held]
    exact isBoundary_iff.mpr ⟨r.shown.length, by simp, rfl⟩
  unfinished := h
  length_le := h.length_le

/-- Whatever is done to a new reply has a result, which is that of the reply in characters: no
offset that is computed cuts a character or lies past an end. What is read only grows until the
reply is cleared. Pending octets are read to their end whatever they are, since each round leaves
fewer of them. -/
theorem run_in_bounds (stops : List String) (acts : List Act) :
    (∃ b, (ofStops stops).run acts = some (((Reply.ofStops stops).run acts).1, b) ∧
      b = layout ((Reply.ofStops stops).run acts).2 ∧ InBounds b ∧
      ∀ act, ∃ hit next before after, b.perform act = some (hit, next) ∧
        b.read = some before ∧ next.read = some after ∧ (act ≠ .clear → before <+: after)) ∧
    ∀ b : ReplyBuffer, (∃ next, b.decodePending = some next) ∧
      ∀ next, b.decodeRound = some (.again next) → next.pending.length < b.pending.length := by
  have hstops := stops_run (Reply.ofStops stops) acts
  have hwaiting := unfinished_run (r := Reply.ofStops stops) unfinished_nil acts
  refine ⟨⟨_, ?_, rfl, inBounds_layout hwaiting, fun act => ?_⟩, fun b => ⟨?_, fun next => ?_⟩⟩
  · rw [ofStops_eq_layout]
    exact run_layout rfl unfinished_nil acts
  · refine ⟨_, _, _, _, perform_layout hstops hwaiting act, read_layout _, read_layout _, ?_⟩
    intro hact
    exact encode_prefix_iff.mpr (shown_prefix_perform _ hact)
  · exact ⟨_, decodePending_eq b⟩
  · exact length_of_decodeRound

theorem run_in_bounds_split :
    let stops := ["</s>"]
    let acts := [.push "Hi<".toUTF8.toList, .push [0xE2, 0x82]]
    ∃ b, (ofStops stops).run acts = some ([false, false], b) ∧
      b.text = "Hi<".toUTF8.toList ∧ b.shown = 2 ∧ b.pending = [0xE2, 0x82] ∧ InBounds b ∧
      ∃ hit next after, b.perform (.push [0xAC]) = some (hit, next) ∧ next.read = some after ∧
        "Hi".toUTF8.toList <+: after := by
  intro stops acts
  obtain ⟨⟨b, hrun, rfl, hbounds, hacts⟩, -⟩ := run_in_bounds stops acts
  obtain ⟨hit, next, before, after, hperform, hbefore, hafter, hgrows⟩ := hacts (.push [0xAC])
  refine ⟨_, ?_, ?_, ?_, ?_, hbounds, hit, next, after, hperform, hafter, ?_⟩
  · rw [hrun]
    decide +kernel
  · decide +kernel
  · decide +kernel
  · decide +kernel
  · have hshown : encode ((Reply.ofStops stops).run acts).2.shown = "Hi".toUTF8.toList := by
      decide +kernel
    rw [read_layout, hshown, Option.some.injEq] at hbefore
    exact hbefore ▸ hgrows Act.noConfusion

end Running

end Dialogue.ReplyBuffer
