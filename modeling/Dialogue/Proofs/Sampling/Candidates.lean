import Mathlib.Algebra.GroupWithZero.Nat
import Mathlib.Data.List.Perm.Subperm
import Mathlib.Data.List.Nodup
import Dialogue.Proofs.Sampling.Selection

namespace Dialogue

namespace Candidate

def tokens (cs : List Candidate) : List TokenId :=
  cs.map Candidate.token

theorem tokens_ofLogits (logits : Logits) :
    tokens (ofLogits logits) = (List.range logits.length).map UInt32.ofNat := by
  rw [tokens, ofLogits, List.map_map, List.range_eq_range', ← List.zipIdx_map_snd 0 logits,
    List.map_map]
  rfl

theorem lt_length_of_mem_ofLogits {logits : Logits} {token : TokenId}
    (h : token ∈ tokens (ofLogits logits)) : token.toNat < logits.length := by
  rw [tokens_ofLogits] at h
  obtain ⟨i, hi, rfl⟩ := List.mem_map.mp h
  -- an index too large for a token would wrap to a smaller one
  rw [UInt32.toNat_ofNat']
  exact Nat.lt_of_le_of_lt (Nat.mod_le _ _) (List.mem_range.mp hi)

theorem nodup_tokens_ofLogits {logits : Logits} (h : logits.length ≤ 2 ^ 32) :
    (tokens (ofLogits logits)).Nodup := by
  rw [tokens_ofLogits]
  refine List.Nodup.map_on ?_ List.nodup_range
  intro i hi j hj heq
  rw [List.mem_range] at hi hj
  have hnat := congrArg UInt32.toNat heq
  rw [UInt32.toNat_ofNat', UInt32.toNat_ofNat'] at hnat
  omega

theorem sortDescending_perm (cs : List Candidate) : (sortDescending cs).Perm cs :=
  List.mergeSort_perm cs _

theorem subperm_take_sortDescending (n : Nat) (cs : List Candidate) :
    (tokens ((sortDescending cs).take n)).Subperm (tokens cs) :=
  ((List.take_sublist n _).map _).subperm.trans ((sortDescending_perm cs).map _).subperm

theorem greatest_mem {cs : List Candidate} {c : Candidate} (h : greatest cs = some c) : c ∈ cs := by
  cases cs with
  | nil => cases h
  | cons first cs =>
      cases h
      induction cs generalizing first with
      | nil => exact List.mem_cons_self
      | cons next cs ih =>
          rw [List.foldl_cons]
          rcases List.mem_cons.mp (ih (if first.logit.rank ≤ next.logit.rank then next else first))
            with hbest | hmem
          · rw [hbest]
            split <;> simp
          · exact List.mem_cons_of_mem _ (List.mem_cons_of_mem _ hmem)

theorem rank_le_greatest {cs : List Candidate} {c : Candidate} (h : greatest cs = some c) :
    ∀ d ∈ cs, d.logit.rank ≤ c.logit.rank := by
  cases cs with
  | nil => cases h
  | cons first cs =>
      cases h
      induction cs generalizing first with
      | nil =>
          rw [List.forall_mem_singleton]
          exact Int.le_refl _
      | cons next cs ih =>
          have hbest := ih (if first.logit.rank ≤ next.logit.rank then next else first)
          rw [List.forall_mem_cons] at hbest
          rw [List.foldl_cons, List.forall_mem_cons, List.forall_mem_cons]
          refine ⟨Int.le_trans ?_ hbest.1, Int.le_trans ?_ hbest.1, hbest.2⟩
          all_goals split <;> omega

end Candidate

open Candidate (tokens)

theorem Stage.subperm_apply (stage : Stage) (cs : List Candidate) :
    (tokens (apply cs stage)).Subperm (tokens cs) := by
  cases stage with
  | repetitionPenalty penalty window recent =>
      have htokens : tokens (apply cs (.repetitionPenalty penalty window recent)) = tokens cs := by
        rw [apply, tokens, List.map_map]
        apply List.map_congr_left
        intro c hc
        rw [Function.comp_apply]
        split <;> rfl
      rw [htokens]
  | temperature t =>
      rw [apply, tokens, List.map_map]
      exact .refl _
  | topK k =>
      rw [apply]
      split
      · exact .refl _
      · exact Candidate.subperm_take_sortDescending _ cs
  | topP p =>
      rw [apply]
      split
      · exact .refl _
      · exact Candidate.subperm_take_sortDescending _ cs

theorem Selector.mem_of_select {cs : List Candidate} {source : Random.Source} {selector : Selector}
    {token : TokenId} (h : (selector.select cs source).1 = some token) : token ∈ tokens cs := by
  have hgreedy : greedyToken cs = some token → token ∈ tokens cs := by
    intro hgreedy
    obtain ⟨c, hc, rfl⟩ := Option.map_eq_some_iff.mp hgreedy
    exact List.mem_map_of_mem (Candidate.greatest_mem hc)
  cases selector with
  | greedy => exact hgreedy h
  | distribution =>
      rw [select] at h
      rcases hdraw : Random.draw (Candidate.softmax cs) source with ⟨i | i, source'⟩
      all_goals rw [hdraw] at h
      · exact hgreedy h
      · obtain ⟨c, hc, rfl⟩ := Option.map_eq_some_iff.mp h
        exact List.mem_map_of_mem (List.mem_of_getElem? hc)

namespace Chain

theorem applyStages_concat (stages : List Stage) (stage : Stage) (cs : List Candidate) :
    applyStages (stages ++ [stage]) cs = stage.apply (applyStages stages cs) :=
  List.foldl_append

theorem subperm_applyStages (stages : List Stage) (cs : List Candidate) :
    (tokens (applyStages stages cs)).Subperm (tokens cs) := by
  induction stages generalizing cs with
  | nil => exact .refl _
  | cons stage stages ih => exact (ih (stage.apply cs)).trans (stage.subperm_apply cs)

theorem nodup_applyStages {logits : Logits} (h : logits.length ≤ 2 ^ 32) (stages : List Stage) :
    (tokens (applyStages stages (Candidate.ofLogits logits))).Nodup := by
  obtain ⟨some, hperm, hsublist⟩ := subperm_applyStages stages (Candidate.ofLogits logits)
  exact hperm.nodup_iff.mp ((Candidate.nodup_tokens_ofLogits h).sublist hsublist)

theorem mem_of_sample {c : Chain} {logits : Logits} {token : TokenId}
    (h : (c.sample logits).1 = some token) :
    token ∈ tokens (applyStages c.stages (Candidate.ofLogits logits)) :=
  Selector.mem_of_select h

theorem lt_length_of_sample {c : Chain} {logits : Logits} {token : TokenId}
    (h : (c.sample logits).1 = some token) : token.toNat < logits.length :=
  Candidate.lt_length_of_mem_ofLogits ((subperm_applyStages _ _).subset (mem_of_sample h))

theorem sample_nil (c : Chain) : (c.sample []).1 = none := by
  cases htoken : (c.sample []).1 with
  | none => rfl
  | some token => exact absurd (lt_length_of_sample htoken) (Nat.not_lt_zero _)

end Chain

/-- A chain selects a token whenever there are logits, whatever its stages do and whatever it was
used for before; the token is the index of a logit and one of the candidates that the stages left.
Each stage leaves different candidates, some of those it was given and at least one. -/
theorem sample_candidate (c : Chain) {logits : Logits} (h : logits.length ≤ 2 ^ 32) :
    let left := fun stages => tokens (Chain.applyStages stages (Candidate.ofLogits logits))
    ((c.sample logits).1 = none ↔ logits = []) ∧
    (∀ token, (c.sample logits).1 = some token →
      token.toNat < logits.length ∧ token ∈ left c.stages) ∧
    (∀ before stage, before ++ [stage] <+: c.stages →
      (left (before ++ [stage])).Nodup ∧ left (before ++ [stage]) ⊆ left before ∧
        (left before ≠ [] → left (before ++ [stage]) ≠ [])) := by
  intro left
  refine ⟨⟨fun hnone => ?_, ?_⟩, fun token htoken => ?_, fun before stage _ => ⟨?_, ?_, ?_⟩⟩
  · by_contra hlogits
    have hsome := c.sample_isSome hlogits
    rw [hnone] at hsome
    cases hsome
  · rintro rfl
    exact c.sample_nil
  · exact ⟨Chain.lt_length_of_sample htoken, Chain.mem_of_sample htoken⟩
  · exact Chain.nodup_applyStages h _
  · simp only [left, Chain.applyStages_concat]
    exact (stage.subperm_apply _).subset
  · simp only [left, Chain.applyStages_concat, tokens, ne_eq, List.map_eq_nil_iff]
    exact fun hbefore => Stage.apply_ne_nil hbefore stage

/-- A chain that draws among logits that are no probabilities: not a number, and both infinities. -/
theorem sample_candidate_infinite :
    let c : Chain := .new [.topP 0, .temperature (.infinity true), .topK 2] .distribution (some 7)
      fun _ => 0
    let logits : Logits := [.invalid, .infinity false, .infinity true]
    logits.length ≤ 2 ^ 32 ∧
      ∃ token, (c.sample logits).1 = some token ∧ token.toNat < logits.length := by
  intro c logits
  have hlength : logits.length ≤ 2 ^ 32 := by decide
  obtain ⟨hnone, hsome, -⟩ := sample_candidate c hlength
  refine ⟨hlength, ?_⟩
  cases htoken : (c.sample logits).1 with
  | none => exact absurd (hnone.mp htoken) (List.cons_ne_nil _ _)
  | some token => exact ⟨token, rfl, (hsome token htoken).1⟩

end Dialogue
