import Mathlib.Algebra.GroupWithZero.Nat
import Dialogue.Tokenizer.BytePair

namespace Dialogue

namespace Vocabulary

theorem getElem?_extendIndex (index : Std.TreeMap String TokenId) (n : Nat) (tokens : List String)
    (text : String) :
    (extendIndex index n tokens)[text]? =
      index[text]?.or ((tokens.idxOf? text).map fun i => UInt32.ofNat (n + i)) := by
  induction tokens generalizing index n with
  | nil => simp [extendIndex]
  | cons token rest ih =>
      rw [extendIndex, ih, Std.TreeMap.getElem?_insertIfNew, List.idxOf?_cons]
      simp only [Std.compare_eq_iff_eq, beq_iff_eq]
      by_cases htoken : token = text
      · subst htoken
        cases hold : index[token]? <;> simp [Std.TreeMap.mem_iff_isSome_getElem?, hold]
      · simp [htoken, Function.comp_def, Nat.add_assoc, Nat.add_comm 1]

variable {tokens : List String} {bos : Option TokenId} {eos : List TokenId}
  {unknown : Option TokenId} {v : Vocabulary}

theorem new_eq_ok (h : new tokens bos eos unknown = .ok v) :
    v = { tokens := tokens.toArray, index := indexOf tokens, bos, eos, unknown } ∧
      ∀ id ∈ bos.toList ++ eos ++ unknown.toList, id.toNat < tokens.length := by
  rw [new] at h
  split at h
  · cases h
  · rename_i hnone
    cases h
    exact ⟨rfl, fun id hid => by simpa using List.find?_eq_none.mp hnone id hid⟩

theorem id?_new (h : new tokens bos eos unknown = .ok v) (text : String) :
    v.id? text = (tokens.idxOf? text).map UInt32.ofNat := by
  obtain ⟨rfl, -⟩ := new_eq_ok h
  simp [id?, indexOf, getElem?_extendIndex]

theorem isOk_new_iff (tokens : List String) (bos : Option TokenId) (eos : List TokenId)
    (unknown : Option TokenId) :
    (new tokens bos eos unknown).isOk = true ↔
      ∀ id ∈ bos.toList ++ eos ++ unknown.toList, id.toNat < tokens.length := by
  rw [new]
  split
  · rename_i id hfind
    have hlarge : tokens.length ≤ id.toNat := by simpa using List.find?_some hfind
    refine ⟨fun h => by simp [Except.isOk, Except.toBool] at h, fun h => ?_⟩
    exact absurd (h id (List.mem_of_find?_eq_some hfind)) (Nat.not_lt.mpr hlarge)
  · rename_i hfind
    refine ⟨fun _ id hid => ?_, fun _ => rfl⟩
    simpa using List.find?_eq_none.mp hfind id hid

/-- A text stands at a place of a list and at none before it. -/
structure FirstAt (tokens : List String) (text : String) (i : Nat) : Prop where
  here : tokens[i]? = some text
  notBefore : ∀ j < i, tokens[j]? ≠ some text

theorem idxOf?_eq_some_iff_firstAt {text : String} {i : Nat} :
    tokens.idxOf? text = some i ↔ FirstAt tokens text i := by
  rw [List.idxOf?_eq_some_iff]
  constructor
  · rintro ⟨hi, hhere, hbefore⟩
    refine ⟨List.getElem?_eq_some_iff.mpr ⟨hi, hhere⟩, fun j hj hearlier => ?_⟩
    obtain ⟨_, htext⟩ := List.getElem?_eq_some_iff.mp hearlier
    exact hbefore j hj htext
  · rintro ⟨hhere, hbefore⟩
    obtain ⟨hi, htext⟩ := List.getElem?_eq_some_iff.mp hhere
    refine ⟨hi, htext, fun j hj hearlier => hbefore j hj ?_⟩
    exact List.getElem?_eq_some_iff.mpr ⟨Nat.lt_trans hj hi, hearlier⟩

theorem FirstAt.le {text : String} {i j : Nat} (h : FirstAt tokens text i)
    (hj : tokens[j]? = some text) : i ≤ j :=
  Nat.not_lt.mp fun hlt => h.notBefore j hlt hj

theorem exists_firstAt {text : String} (h : text ∈ tokens) : ∃ i, FirstAt tokens text i := by
  obtain ⟨i, hi⟩ := Option.isSome_iff_exists.mp (List.isSome_idxOf?.mpr h)
  exact ⟨i, idxOf?_eq_some_iff_firstAt.mp hi⟩

theorem token?_new (h : new tokens bos eos unknown = .ok v) (id : TokenId) :
    v.token? id = tokens[id.toNat]? := by
  obtain ⟨rfl, -⟩ := new_eq_ok h
  simp [token?]

theorem toNat_id?_new (h : new tokens bos eos unknown = .ok v) (hsize : tokens.length ≤ 2 ^ 32)
    (text : String) : (v.id? text).map UInt32.toNat = tokens.idxOf? text := by
  rw [id?_new h, Option.map_map]
  cases hi : tokens.idxOf? text with
  | none => rfl
  | some i =>
      obtain ⟨hlength, -⟩ := List.idxOf?_eq_some_iff.mp hi
      exact congrArg some (UInt32.toNat_ofNat_of_lt' (Nat.lt_of_lt_of_le hlength hsize))

theorem map_id?_eq_some_iff (h : new tokens bos eos unknown = .ok v)
    (hsize : tokens.length ≤ 2 ^ 32) {text : String} {i : Nat} :
    (v.id? text).map UInt32.toNat = some i ↔ FirstAt tokens text i := by
  rw [toNat_id?_new h hsize, idxOf?_eq_some_iff_firstAt]

theorem exists_id?_of_mem (h : new tokens bos eos unknown = .ok v)
    (hsize : tokens.length ≤ 2 ^ 32) {text : String} (htext : text ∈ tokens) :
    ∃ id, v.id? text = some id ∧ FirstAt tokens text id.toNat := by
  obtain ⟨i, hi⟩ := exists_firstAt htext
  obtain ⟨id, hid, rfl⟩ := Option.map_eq_some_iff.mp ((map_id?_eq_some_iff h hsize).mpr hi)
  exact ⟨id, hid, hi⟩

/-- A vocabulary is made exactly if its roles are those of tokens. It then gives a text the place
where it stands first among the tokens, so that every token has the text it was looked up by, and
no id but the least of a text is looked up. -/
theorem lookup_finds_first {tokens : List String} (hsize : tokens.length ≤ 2 ^ 32)
    (bos : Option TokenId) (eos : List TokenId) (unknown : Option TokenId) :
    ((new tokens bos eos unknown).isOk = true ↔
        ∀ id ∈ bos.toList ++ eos ++ unknown.toList, id.toNat < tokens.length) ∧
      ∀ v, new tokens bos eos unknown = .ok v →
        (∀ id, v.token? id = tokens[id.toNat]?) ∧
        (∀ text i, (v.id? text).map UInt32.toNat = some i ↔ FirstAt tokens text i) ∧
        (∀ text ∈ tokens, ∃ id, v.id? text = some id ∧ v.token? id = some text) ∧
        ∀ id text, v.token? id = some text →
          ∃ least, v.id? text = some least ∧ least ≤ id ∧
            (least = id ↔ ∀ earlier < id, v.token? earlier ≠ some text) := by
  refine ⟨isOk_new_iff tokens bos eos unknown, fun v h => ?_⟩
  have htoken := token?_new h
  refine ⟨htoken, fun text i => map_id?_eq_some_iff h hsize, fun text htext => ?_,
    fun id text hid => ?_⟩
  · obtain ⟨id, hid, hfirst⟩ := exists_id?_of_mem h hsize htext
    exact ⟨id, hid, (htoken id).trans hfirst.here⟩
  · rw [htoken] at hid
    obtain ⟨least, hleast, hfirst⟩ := exists_id?_of_mem h hsize (List.mem_of_getElem? hid)
    have hle : least ≤ id := hfirst.le hid
    refine ⟨least, hleast, hle, ?_, fun hnone => ?_⟩
    · rintro rfl earlier hearlier
      exact htoken earlier ▸ hfirst.notBefore earlier.toNat hearlier
    · refine UInt32.le_antisymm hle (UInt32.not_lt.mp fun hlt => hnone least hlt ?_)
      exact (htoken least).trans hfirst.here

/-- The third token repeats the first, and the second is empty. -/
theorem lookup_finds_first_repeated :
    let tokens := ["x", "", "x"]
    tokens.length ≤ 2 ^ 32 ∧ (new tokens (some 0) [2] (some 1)).isOk = true ∧
      ∃ v, new tokens (some 0) [2] (some 1) = .ok v ∧ (v.id? "").map UInt32.toNat = some 1 ∧
        v.token? 2 = some "x" ∧ ∃ least, v.id? "x" = some least ∧ least < 2 := by
  intro tokens
  have hsize : tokens.length ≤ 2 ^ 32 := by decide
  obtain ⟨hok, hlookup⟩ := lookup_finds_first hsize (some 0) [2] (some 1)
  obtain ⟨v, hv⟩ : ∃ v, new tokens (some 0) [2] (some 1) = .ok v := ⟨_, rfl⟩
  obtain ⟨htoken, hfirst, -, hleast⟩ := hlookup v hv
  have hthird : v.token? 2 = some "x" := (htoken 2).trans rfl
  obtain ⟨least, hid, hle, hequal⟩ := hleast 2 "x" hthird
  have hrepeated : least ≠ 2 := fun h => hequal.mp h 0 (by decide) ((htoken 0).trans rfl)
  exact ⟨hsize, hok.mpr (by simp [tokens]), v, hv, (hfirst "" 1).mpr ⟨rfl, by decide⟩, hthird,
    least, hid, UInt32.lt_of_le_of_ne hle hrepeated⟩

/-- Whatever a vocabulary gives is one of its tokens. -/
structure InRange (v : Vocabulary) : Prop where
  id : ∀ text token, v.id? text = some token → token.toNat < v.size
  bos : ∀ token, v.bos = some token → token.toNat < v.size
  eos : ∀ token ∈ v.eos, token.toNat < v.size
  unknown : ∀ token, v.unknown = some token → token.toNat < v.size

theorem inRange_new (h : new tokens bos eos unknown = .ok v) : v.InRange := by
  have hid := id?_new h
  obtain ⟨rfl, hroles⟩ := new_eq_ok h
  simp only [List.mem_append, Option.mem_toList] at hroles
  refine ⟨fun text token htoken => ?_, ?_, ?_, ?_⟩
  · rw [hid, Option.map_eq_some_iff] at htoken
    obtain ⟨i, hi, rfl⟩ := htoken
    obtain ⟨hlength, -⟩ := List.idxOf?_eq_some_iff.mp hi
    -- a place too large for an id would wrap to a smaller one
    exact Nat.lt_of_le_of_lt (UInt32.toNat_ofNat' ▸ Nat.mod_le _ _) hlength
  · exact fun token htoken => hroles token (.inl (.inl htoken))
  · exact fun token htoken => hroles token (.inl (.inr htoken))
  · exact fun token htoken => hroles token (.inr htoken)

end Vocabulary

/-- The tokens that a tokenizer puts into a prompt are below its size. -/
structure Tokenizer.InRange (t : Tokenizer) : Prop where
  encode : ∀ text, ∀ token ∈ t.encode text, token.toNat < t.vocabSize
  bos : ∀ token ∈ t.bos.toList, token.toNat < t.vocabSize

theorem BytePair.inRange_tokenizer {b : BytePair} (h : b.vocabulary.InRange) :
    b.tokenizer.InRange where
  encode text token htoken := by
    obtain ⟨piece, -, hpiece⟩ := List.mem_filterMap.mp htoken
    rcases Option.or_eq_some_iff.mp hpiece with hid | ⟨-, hunknown⟩
    · exact h.id piece token hid
    · exact h.unknown token hunknown
  bos token htoken := h.bos token (Option.mem_toList.mp htoken)

theorem BytePair.new_eq_ok {v : Vocabulary} {merges : List String} {b : BytePair}
    (h : new v merges = .ok b) : b.vocabulary = v := by
  rw [new] at h
  cases hranks : extendRanks ∅ 0 merges with
  | error reason => simp [hranks, Except.map] at h
  | ok ranks =>
      rw [hranks] at h
      cases h
      rfl

end Dialogue
