import Mathlib.Data.List.Forall2
import Dialogue.Proofs.Binary.Widening
import Dialogue.Proofs.Tensor.Making
import Dialogue.Session.Image

namespace Dialogue

namespace Image

open Tensor (bind_eq_ok_iff mapError_eq_ok_iff reshape_eq_ok_iff)

variable {t image : Tensor}

theorem unbatch_eq_ok_iff {u : Tensor} :
    unbatch t = .ok u ↔ u.storage = t.storage ∧
      if t.shape.rank = dims.length + 1 then t.shape.dims = 1 :: u.shape.dims
      else u.shape = t.shape := by
  rw [unbatch]
  split
  · rw [bind_eq_ok_iff]
    constructor
    · rintro ⟨shape, hsqueeze, hreshape⟩
      obtain ⟨-, hstorage, rfl⟩ := reshape_eq_ok_iff.mp hreshape
      exact ⟨hstorage, Shape.squeezeLeading_eq_ok_iff.mp hsqueeze⟩
    · rintro ⟨hstorage, hdims⟩
      refine ⟨u.shape, Shape.squeezeLeading_eq_ok_iff.mpr hdims,
        reshape_eq_ok_iff.mpr ⟨?_, hstorage, rfl⟩⟩
      rw [← t.size_eq, ← u.size_eq, hstorage]
  · rw [Except.ok.injEq]
    constructor
    · rintro rfl
      exact ⟨rfl, rfl⟩
    · rintro ⟨hstorage, hshape⟩
      exact Tensor.eq_of_parts hstorage.symm hshape.symm

theorem count_eq (h : t.shape.dims = dims ∨ t.shape.dims = 1 :: dims) :
    t.shape.count = Shape.count ⟨dims⟩ := by
  rw [Shape.count]
  rcases h with h | h
  · rw [h]
    rfl
  · rw [h, List.foldr_cons, Nat.one_mul]
    rfl

theorem normalize_eq_ok_iff :
    normalize t = .ok image ↔
      (t.shape.dims = dims ∨ t.shape.dims = 1 :: dims) ∧
        image.storage = t.storage.widen ∧ image.shape = ⟨dims⟩ := by
  rw [normalize, bind_eq_ok_iff]
  constructor
  · rintro ⟨u, hunbatch, hwiden⟩
    obtain ⟨⟨⟩, hensure, himage⟩ := bind_eq_ok_iff.mp hwiden
    obtain ⟨hstorage, hshape⟩ := unbatch_eq_ok_iff.mp (mapError_eq_ok_iff.mp hunbatch)
    have hdims := Shape.ensure_eq_ok_iff.mp (mapError_eq_ok_iff.mp hensure)
    cases himage
    refine ⟨?_, congrArg Storage.widen hstorage, congrArg Shape.mk hdims⟩
    split at hshape
    · exact .inr (hdims ▸ hshape)
    · exact .inl (hshape ▸ hdims)
  · rintro ⟨hdims, hstorage, hshape⟩
    have hsize : t.storage.size = Shape.count ⟨dims⟩ := t.size_eq.trans (count_eq hdims)
    have hunbatch : unbatch t = .ok ⟨t.storage, ⟨dims⟩, hsize⟩ := by
      rw [unbatch_eq_ok_iff, Shape.rank]
      refine ⟨rfl, ?_⟩
      rcases hdims with hdims | hdims
      · rw [hdims, if_neg (by decide)]
        exact congrArg Shape.mk hdims.symm
      · rw [hdims, if_pos (by decide)]
    refine ⟨_, mapError_eq_ok_iff.mpr hunbatch, bind_eq_ok_iff.mpr
      ⟨(), mapError_eq_ok_iff.mpr (Shape.ensure_eq_ok_iff.mpr rfl), ?_⟩⟩
    exact congrArg Except.ok (Tensor.eq_of_parts hstorage.symm hshape.symm)

theorem exists_normal (h : t.shape.dims = dims ∨ t.shape.dims = 1 :: dims) :
    ∃ image, normalize t = .ok image :=
  ⟨⟨t.storage.widen, ⟨dims⟩, by rw [Storage.size_widen, t.size_eq, count_eq h]⟩,
    normalize_eq_ok_iff.mpr ⟨h, rfl, rfl⟩⟩

end Image

namespace Storage

/-- Singles with the numbers of a storage, in its order. -/
def SameAs : Storage → Array Binary32 → Prop
  | .f32 data, wide => wide = data
  | .f16 data, wide => List.Forall₂ Binary.Widened data.toList wide.toList

theorem sameAs_widened (s : Storage) : s.SameAs s.widened := by
  cases s with
  | f32 data => rfl
  | f16 data =>
      rw [SameAs, widened, Array.toList_map, List.forall₂_map_right_iff, List.forall₂_same]
      intro x _
      exact Binary.widened_convert x

end Storage

namespace Image

open Tensor (bind_eq_ok_iff)

/-- A tensor made in any way has as many elements as its shape says, it is reshaped exactly to the
shapes that say the same, and it gives an image exactly if it has one of two shapes. -/
theorem made_tensors_normalize {making : Tensor.Making} {raw : RawTensor}
    (hfits : ∀ shape ∈ making.shapes, shape.dims.prod < 2 ^ 64)
    (hmade : making.makeRaw = .ok raw) :
    raw.storage.size = raw.shape.dims.prod ∧
    (∀ shape : Shape, shape.dims.prod < 2 ^ 64 →
      raw.reshape shape =
        if raw.shape.dims.prod = shape.dims.prod then .ok ⟨raw.storage, shape⟩
        else .error (.shapeMismatch raw.shape.dims shape.dims)) ∧
    ∃ t, making.make = .ok t ∧ t.raw = raw ∧
      if raw.shape.dims = [3, 336, 336] ∨ raw.shape.dims = [1, 3, 336, 336] then
        ∃ image wide, normalize t = .ok image ∧ image.shape.dims = [3, 336, 336] ∧
          image.storage = .f32 wide ∧ raw.storage.SameAs wide
      else ∃ reason, normalize t = .error reason := by
  rw [Tensor.Making.makeRaw_eq hfits] at hmade
  cases hmake : making.make with
  | error reason => simp [hmake, Except.map] at hmade
  | ok t =>
      rw [hmake] at hmade
      cases hmade
      have hfit := hfits _ (Tensor.Making.shape_mem_of_make hmake)
      refine ⟨t.size_eq, fun shape hshape => ?_, t, rfl, rfl, ?_⟩
      · rw [RawTensor.reshape]
        exact if_congr (Shape.countWord_inj hfit hshape) rfl rfl
      · split
        · rename_i hdims
          obtain ⟨image, himage⟩ := exists_normal hdims
          obtain ⟨-, hstorage, hshape⟩ := normalize_eq_ok_iff.mp himage
          exact ⟨image, _, himage, congrArg Shape.dims hshape, hstorage, t.storage.sameAs_widened⟩
        · rename_i hdims
          cases hnormal : normalize t with
          | error reason => exact ⟨reason, rfl⟩
          | ok image => exact absurd (normalize_eq_ok_iff.mp hnormal).1 hdims

/-- Halves in a row, taken for a batch of one image. -/
theorem made_tensors_normalize_batched :
    let data : Array Binary16 := Array.replicate (3 * 336 * 336) (.ofBits 0x3400)
    let making : Tensor.Making := .reshape (.ofHalves data ⟨[338688]⟩) ⟨[1, 3, 336, 336]⟩
    (∀ shape ∈ making.shapes, shape.dims.prod < 2 ^ 64) ∧
      making.makeRaw = .ok ⟨.f16 data, ⟨[1, 3, 336, 336]⟩⟩ ∧
      ∃ t image wide, making.make = .ok t ∧ normalize t = .ok image ∧
        image.shape.dims = [3, 336, 336] ∧ image.storage = .f32 wide ∧
        (Storage.f16 data).SameAs wide := by
  intro data making
  have hfits : ∀ shape ∈ making.shapes, shape.dims.prod < 2 ^ 64 := by decide
  have hmade : making.makeRaw = .ok ⟨.f16 data, ⟨[1, 3, 336, 336]⟩⟩ := by
    have hrow : RawTensor.ofStorage (.f16 data) ⟨[338688]⟩ = .ok ⟨.f16 data, ⟨[338688]⟩⟩ :=
      if_pos (Array.size_replicate.trans (by decide))
    have hwords : Shape.countWord ⟨[338688]⟩ = Shape.countWord ⟨[1, 3, 336, 336]⟩ := by decide
    exact bind_eq_ok_iff.mpr ⟨_, hrow, if_pos hwords⟩
  obtain ⟨-, -, t, hmake, -, hnormal⟩ := made_tensors_normalize hfits hmade
  rw [if_pos (.inr rfl)] at hnormal
  obtain ⟨image, wide, hnormal⟩ := hnormal
  exact ⟨hfits, hmade, t, image, wide, hmake, hnormal⟩

end Image

end Dialogue
