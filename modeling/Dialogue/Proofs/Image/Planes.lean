import Mathlib.Data.List.Perm.Subperm
import Mathlib.Data.List.Nodup
import Mathlib.Order.Fin.Basic
import Dialogue.Session.Packing

/-!
Packing pixels into planes as a transpose. The stores go to every place once, so that nothing is
overwritten and no zero of the buffer is left, and since levels tell octets apart, an image has only
one origin.
-/

namespace Dialogue.Image

def placeOf (k : Nat) : Nat :=
  k % channels * plane + k / channels

def sourceOf (j : Nat) : Nat :=
  j % plane * channels + j / plane

section Places

variable {j k c i : Nat}

theorem placeOf_lt (h : k < plane * channels) : placeOf k < plane * channels := by
  simp only [placeOf, plane, width, height, channels] at h ⊢
  omega

theorem sourceOf_lt (h : j < plane * channels) : sourceOf j < plane * channels := by
  simp only [sourceOf, plane, width, height, channels] at h ⊢
  omega

theorem sourceOf_placeOf (h : k < plane * channels) : sourceOf (placeOf k) = k := by
  simp only [sourceOf, placeOf, plane, width, height, channels] at h ⊢
  omega

theorem placeOf_sourceOf (h : j < plane * channels) : placeOf (sourceOf j) = j := by
  simp only [sourceOf, placeOf, plane, width, height, channels] at h ⊢
  omega

theorem placeOf_pixel (hc : c < channels) : placeOf (i * channels + c) = c * plane + i := by
  simp only [placeOf, plane, width, height, channels] at hc ⊢
  omega

theorem places_perm : ((List.range (plane * channels)).map placeOf).Perm
    (List.range (plane * channels)) := by
  have hnodup : ((List.range (plane * channels)).map placeOf).Nodup := by
    apply List.Nodup.of_map sourceOf
    rw [List.map_map, List.map_congr_left, List.map_id]
    · exact List.nodup_range
    · intro k hk
      exact sourceOf_placeOf (List.mem_range.mp hk)
  apply (List.subperm_of_subset hnodup ?_).perm_of_length_le
  · rw [List.length_map]
  · intro j hj
    obtain ⟨k, hk, rfl⟩ := List.mem_map.mp hj
    exact List.mem_range.mpr (placeOf_lt (List.mem_range.mp hk))

theorem range_mul (n m : Nat) :
    List.range (n * m) = (List.range n).flatMap fun i => (List.range m).map (i * m + ·) := by
  induction n with
  | zero => rw [Nat.zero_mul]; rfl
  | succ n ih =>
      rw [Nat.succ_mul, List.range_add, ih, List.range_succ, List.flatMap_append,
        List.flatMap_singleton]

end Places

section Stores

variable {pixels : Array UInt8}

theorem stores_pixel {i : Nat} (h : i * channels + channels ≤ pixels.size) :
    ((pixels.extract (i * channels) (i * channels + channels)).toList.zipIdx.map
        fun (v, c) => (c * plane + i, v)) =
      (List.range channels).map fun c =>
        (placeOf (i * channels + c), pixels.getD (i * channels + c) 0) := by
  have hlength : (pixels.extract (i * channels) (i * channels + channels)).size = channels := by
    rw [Array.size_extract]
    omega
  apply List.ext_getElem
  · rw [List.length_map, List.length_zipIdx, Array.length_toList, hlength, List.length_map,
      List.length_range]
  · intro c hc hc'
    rw [List.length_map, List.length_range] at hc'
    have hin : i * channels + c < pixels.size := by omega
    simp [placeOf_pixel hc', hin]

theorem stores_eq (h : pixels.size = plane * channels) :
    stores pixels =
      (List.range (plane * channels)).map fun k => (placeOf k, pixels.getD k 0) := by
  have hwhole : (wholePixels pixels).zipIdx = (List.range plane).map fun i =>
      (pixels.extract (i * channels) (i * channels + channels), i) := by
    rw [wholePixels, h]
    apply List.ext_getElem <;> simp [channels]
  rw [stores, hwhole, range_mul, List.map_flatMap, List.flatMap_map]
  apply List.flatMap_congr
  intro i hi
  rw [List.map_map]
  apply stores_pixel
  have hle := Nat.mul_le_mul_right channels (Nat.succ_le_of_lt (List.mem_range.mp hi))
  rwa [Nat.succ_mul, ← h] at hle

/-- What stores at different places leave of a buffer. -/
structure Stored (buffer : Array Binary32) (stores : List (Nat × UInt8))
    (result : Array Binary32) : Prop where
  size : result.size = buffer.size
  written : ∀ place v, (place, v) ∈ stores → result[place]? = some (level v)
  kept : ∀ place, place ∉ stores.map Prod.fst → result[place]? = buffer[place]?

theorem exists_stored {stores : List (Nat × UInt8)} {buffer : Array Binary32}
    (hbounds : ∀ place ∈ stores.map Prod.fst, place < buffer.size)
    (hnodup : (stores.map Prod.fst).Nodup) :
    ∃ result, storeAll buffer stores = some result ∧ Stored buffer stores result := by
  induction stores generalizing buffer with
  | nil => exact ⟨buffer, rfl, rfl, nofun, fun _ _ => rfl⟩
  | cons first rest ih =>
      obtain ⟨place, v⟩ := first
      rw [List.map_cons, List.forall_mem_cons] at hbounds
      rw [List.map_cons, List.nodup_cons] at hnodup
      have hrestBounds : ∀ other ∈ rest.map Prod.fst,
          other < (buffer.set place (levelOf v) hbounds.1).size := by
        simpa using hbounds.2
      obtain ⟨result, hrest, hstored⟩ := ih hrestBounds hnodup.2
      -- The stores that follow are at other places, so they keep what the first one leaves.
      refine ⟨result, ?_, hstored.size.trans (Array.size_set _), ?_, ?_⟩
      · rw [storeAll, store, dif_pos hbounds.1]
        exact hrest
      · rintro other w hmem
        rcases List.mem_cons.mp hmem with heq | hmem
        · cases heq
          rw [hstored.kept place hnodup.1, Array.getElem?_set, if_pos rfl, levelOf_eq_level]
        · exact hstored.written other w hmem
      · intro other hother
        rw [List.map_cons, List.mem_cons, not_or] at hother
        rw [hstored.kept other hother.2, Array.getElem?_set, if_neg (Ne.symm hother.1)]

theorem map_fst_stores (h : pixels.size = plane * channels) :
    (stores pixels).map Prod.fst = (List.range (plane * channels)).map placeOf := by
  rw [stores_eq h, List.map_map]
  rfl

theorem map_snd_stores (h : pixels.size = plane * channels) :
    (stores pixels).map Prod.snd = pixels.toList := by
  rw [stores_eq h, List.map_map]
  apply List.ext_getElem
  · simp [h]
  · intro k hk hk'
    rw [Array.length_toList] at hk'
    simp [hk']

theorem exists_pack (h : pixels.size = plane * channels) :
    ∃ data, pack pixels = some data ∧
      Stored (.replicate (plane * channels) 0) (stores pixels) data := by
  apply exists_stored
  · rw [map_fst_stores h, Array.size_replicate]
    intro place hplace
    rwa [places_perm.mem_iff, List.mem_range] at hplace
  · rw [map_fst_stores h, places_perm.nodup_iff]
    exact List.nodup_range

theorem pack_eq_planar (h : pixels.size = plane * channels) :
    pack pixels = some (planar pixels) := by
  obtain ⟨data, hdata, hstored⟩ := exists_pack h
  have hsize : data.size = plane * channels :=
    hstored.size.trans Array.size_replicate
  rw [hdata, Option.some.injEq]
  apply Array.ext
  · rw [hsize, planar, Array.size_ofFn]
  · intro j hin hin'
    have hj : j < plane * channels := hsize ▸ hin
    have hmem : (j, pixels.getD (sourceOf j) 0) ∈ stores pixels := by
      rw [stores_eq h]
      exact List.mem_map.mpr ⟨sourceOf j, List.mem_range.mpr (sourceOf_lt hj),
        by rw [placeOf_sourceOf hj]⟩
    have hwritten := hstored.written _ _ hmem
    rw [Array.getElem?_eq_getElem hin, Option.some.injEq] at hwritten
    rw [hwritten, ← levelOf_eq_level]
    simp [planar, sourceOf]

theorem getElem?_planar {i c : Nat} (h : pixels.size = plane * channels) (hi : i < plane)
    (hc : c < channels) :
    ∃ v, pixels[i * channels + c]? = some v ∧
      (planar pixels)[c * plane + i]? = some (level v) := by
  obtain ⟨data, hdata, hstored⟩ := exists_pack h
  have heq : data = planar pixels := by
    rw [pack_eq_planar h, Option.some.injEq] at hdata
    exact hdata.symm
  have hk : i * channels + c < plane * channels := by
    simp only [plane, width, height, channels] at hi hc ⊢
    omega
  have hin : i * channels + c < pixels.size := Nat.lt_of_lt_of_eq hk h.symm
  refine ⟨pixels[i * channels + c], Array.getElem?_eq_getElem hin,
    heq ▸ hstored.written _ _ ?_⟩
  rw [stores_eq h, List.mem_map]
  refine ⟨i * channels + c, List.mem_range.mpr hk, ?_⟩
  rw [placeOf_pixel hc, Array.getD_eq_getD_getElem?, Array.getElem?_eq_getElem hin]
  rfl

end Stores

theorem value_level_lt (v : Fin 255) :
    (level (UInt8.ofFin v.castSucc)).value < (level (UInt8.ofFin v.succ)).value := by
  revert v
  decide +kernel

theorem level_injective : Function.Injective level := by
  -- Levels grow from each octet to the next, which takes 255 comparisons and not one for each pair.
  have hmono : StrictMono fun v : Fin 256 => (level (UInt8.ofFin v)).value :=
    Fin.strictMono_iff_lt_succ.mpr value_level_lt
  intro v w h
  have hfin : v.toFin = w.toFin := hmono.injective (congrArg Binary.value h)
  exact UInt8.toFin_inj.mp hfin

section Images

variable {pixels : Array UInt8}

theorem eq_of_planar_eq {other : Array UInt8} (h : pixels.size = plane * channels)
    (h' : other.size = plane * channels) (heq : planar other = planar pixels) : other = pixels := by
  apply Array.ext (h'.trans h.symm)
  intro k hk hk'
  have hi : k / channels < plane := Nat.div_lt_of_lt_mul (by rwa [Nat.mul_comm, ← h])
  have hc : k % channels < channels := Nat.mod_lt _ (by decide)
  obtain ⟨v, hv, hlevel⟩ := getElem?_planar h hi hc
  obtain ⟨v', hv', hlevel'⟩ := getElem?_planar h' hi hc
  rw [heq, hlevel, Option.some.injEq] at hlevel'
  rw [Nat.div_add_mod'] at hv hv'
  rw [Array.getElem?_eq_getElem hk', Option.some.injEq] at hv
  rw [Array.getElem?_eq_getElem hk, Option.some.injEq] at hv'
  rw [hv, hv', level_injective hlevel']

theorem count_dims : Shape.count ⟨dims⟩ = plane * channels := by decide

theorem ofRgb8_of_size (h : pixels.size = plane * channels) :
    ∃ image, ofRgb8 width height pixels = .ok image ∧ image.shape = ⟨dims⟩ ∧
      image.storage = .f32 (planar pixels) := by
  have hsize : (Storage.f32 (planar pixels)).size = Shape.count ⟨dims⟩ := by
    rw [count_dims, Storage.size, planar, Array.size_ofFn]
  refine ⟨⟨.f32 (planar pixels), ⟨dims⟩, hsize⟩, ?_, rfl, rfl⟩
  rw [ofRgb8, if_pos ⟨rfl, rfl⟩, if_pos h, Tensor.ofSingles, Tensor.ofStorage, dif_pos hsize]
  rfl

theorem eq_of_ofRgb8_eq_ok {w h : Nat} {image : Tensor} (hok : ofRgb8 w h pixels = .ok image) :
    pixels.size = plane * channels ∧ image.storage = .f32 (planar pixels) := by
  rw [ofRgb8] at hok
  split at hok
  · split at hok
    · rename_i hsize
      refine ⟨hsize, ?_⟩
      rw [Tensor.ofSingles, Tensor.ofStorage] at hok
      split at hok <;> cases hok
      rfl
    · cases hok
  · cases hok

end Images

end Dialogue.Image
