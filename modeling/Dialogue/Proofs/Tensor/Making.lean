import Mathlib.Algebra.GroupWithZero.Nat
import Dialogue.Tensor.Raw

namespace Dialogue

namespace Shape

theorem toNat_foldl_mul (dims : List Nat) (w : UInt64) :
    (dims.foldl (fun n size => n * UInt64.ofNat size) w).toNat =
      w.toNat * count ⟨dims⟩ % 2 ^ 64 := by
  induction dims generalizing w with
  | nil => simp [Nat.mod_eq_of_lt w.toNat_lt]
  | cons size rest ih =>
      rw [List.foldl_cons, ih, count_cons, UInt64.toNat_mul, UInt64.toNat_ofNat', Nat.mod_mul_mod,
        Nat.mul_right_comm, Nat.mul_mod_mod, Nat.mul_right_comm, Nat.mul_assoc]

theorem toNat_countWord {s : Shape} (h : s.count < 2 ^ 64) : s.countWord.toNat = s.count := by
  rw [countWord, toNat_foldl_mul, UInt64.toNat_one, Nat.one_mul]
  exact Nat.mod_eq_of_lt h

theorem countWord_inj {s t : Shape} (hs : s.count < 2 ^ 64) (ht : t.count < 2 ^ 64) :
    s.countWord = t.countWord ↔ s.count = t.count := by
  rw [← UInt64.toNat_inj, toNat_countWord hs, toNat_countWord ht]

end Shape

namespace Tensor

section Results

variable {ε ε' α γ : Type} {x : Except ε α}

theorem bind_eq_ok_iff {f : α → Except ε γ} {b : γ} :
    (x >>= f) = .ok b ↔ ∃ a, x = .ok a ∧ f a = .ok b := by
  cases x <;> simp [bind, Except.bind]

theorem mapError_eq_ok_iff {f : ε → ε'} {a : α} : x.mapError f = .ok a ↔ x = .ok a := by
  cases x with
  | error reason => exact ⟨nofun, nofun⟩
  | ok b =>
      change Except.ok b = Except.ok a ↔ _
      rw [Except.ok.injEq, Except.ok.injEq]

end Results

section Operations

variable {t t' : Tensor} {storage : Storage} {shape : Shape}

theorem eq_of_parts (hstorage : t.storage = t'.storage) (hshape : t.shape = t'.shape) : t = t' := by
  obtain ⟨storage, shape, hsize⟩ := t
  obtain ⟨storage', shape', hsize'⟩ := t'
  dsimp only at hstorage hshape
  subst hstorage hshape
  rfl

theorem ofStorage_eq_ok_iff :
    ofStorage storage shape = .ok t ↔
      storage.size = shape.count ∧ t.storage = storage ∧ t.shape = shape := by
  rw [ofStorage]
  split
  · rename_i hsize
    rw [Except.ok.injEq]
    constructor
    · rintro rfl
      exact ⟨hsize, rfl, rfl⟩
    · rintro ⟨-, hstorage, hshape⟩
      exact eq_of_parts hstorage.symm hshape.symm
  · rename_i hsize
    exact ⟨nofun, fun h => absurd h.1 hsize⟩

theorem reshape_eq_ok_iff :
    t.reshape shape = .ok t' ↔
      t.shape.count = shape.count ∧ t'.storage = t.storage ∧ t'.shape = shape := by
  rw [reshape]
  split
  · rename_i hcount
    rw [Except.ok.injEq]
    constructor
    · rintro rfl
      exact ⟨hcount, rfl, rfl⟩
    · rintro ⟨-, hstorage, hshape⟩
      exact eq_of_parts hstorage.symm hshape.symm
  · rename_i hcount
    exact ⟨nofun, fun h => absurd h.1 hcount⟩

theorem ofStorage_raw (h : shape.count < 2 ^ 64) :
    RawTensor.ofStorage storage shape = (ofStorage storage shape).map raw := by
  rw [RawTensor.ofStorage, ofStorage, Shape.toNat_countWord h]
  split <;> rfl

theorem zeros_raw (h : shape.count < 2 ^ 64) : RawTensor.zeros shape = (zeros shape).raw := by
  rw [RawTensor.zeros, Shape.toNat_countWord h]
  rfl

theorem reshape_raw (ht : t.shape.count < 2 ^ 64) (h : shape.count < 2 ^ 64) :
    t.raw.reshape shape = (t.reshape shape).map raw := by
  simp only [RawTensor.reshape, reshape, raw, Shape.countWord_inj ht h]
  split <;> rfl

end Operations

namespace Making

theorem shape_mem_of_make {making : Making} {t : Tensor} (h : making.make = .ok t) :
    t.shape ∈ making.shapes := by
  induction making generalizing t with
  | ofSingles | ofHalves | ofStorage =>
      obtain ⟨-, -, hshape⟩ := ofStorage_eq_ok_iff.mp h
      exact List.mem_singleton.mpr hshape
  | zeros shape =>
      cases h
      exact List.mem_cons_self
  | widen making ih =>
      obtain ⟨earlier, hmake, hwiden⟩ := bind_eq_ok_iff.mp h
      have hmem := ih hmake
      cases hwiden
      exact hmem
  | reshape making shape ih =>
      obtain ⟨earlier, hmake, hreshape⟩ := bind_eq_ok_iff.mp h
      rw [(reshape_eq_ok_iff.mp hreshape).2.2]
      exact List.mem_cons_self

theorem makeRaw_eq {making : Making} (hfits : ∀ shape ∈ making.shapes, shape.count < 2 ^ 64) :
    making.makeRaw = making.make.map raw := by
  induction making with
  | ofSingles data shape | ofHalves data shape | ofStorage storage shape =>
      exact ofStorage_raw (hfits shape List.mem_cons_self)
  | zeros shape => exact congrArg Except.ok (zeros_raw (hfits shape List.mem_cons_self))
  | widen making ih =>
      rw [makeRaw, make, ih hfits]
      cases making.make <;> rfl
  | reshape making shape ih =>
      rw [shapes, List.forall_mem_cons] at hfits
      rw [makeRaw, make, ih hfits.2]
      cases hmake : making.make with
      | error reason => rfl
      -- The shape before was given further down, so its product does not wrap around either.
      | ok t => exact reshape_raw (hfits.2 _ (shape_mem_of_make hmake)) hfits.1

end Making

end Tensor

end Dialogue
