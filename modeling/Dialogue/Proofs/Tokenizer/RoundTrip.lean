import Mathlib.Algebra.GroupWithZero.Nat
import Dialogue.Proofs.Text.Repair
import Dialogue.Proofs.Tokenizer.Lookup

namespace Dialogue.BytePair

open Text.Utf8 (lossy_encode)

/-- A token of this text stands for the octet that it names. -/
def NamesOctet (token : String) : Prop :=
  (octet? token.toList).isSome

instance (token : String) : Decidable (NamesOctet token) :=
  inferInstanceAs (Decidable (_ = true))

/-- Two texts join to a token, and no octet is named on the way. -/
structure Joins (tokens : List String) (left right : String) : Prop where
  mem : left ++ right ∈ tokens
  not_left : ¬ NamesOctet left
  not_right : ¬ NamesOctet right
  not_joined : ¬ NamesOctet (left ++ right)

/-- A rule without a side cannot apply, since no piece is empty. -/
def RulesJoin (tokens merges : List String) : Prop :=
  ∀ entry ∈ merges, ∀ left right, splitMerge entry = some (left, right) →
    left ≠ "" → right ≠ "" → Joins tokens left right

/-- A character has a token, or each of its octets has one. -/
def Covers (v : Vocabulary) (tokens : List String) (c : Char) : Prop :=
  charPiece v c ∈ tokens ∨ ∀ b ∈ String.utf8EncodeChar c, octetToken b ∈ tokens

instance (v : Vocabulary) (tokens : List String) (c : Char) : Decidable (Covers v tokens c) :=
  have := List.decidableBAll (octetToken · ∈ tokens) (String.utf8EncodeChar c)
  inferInstanceAs (Decidable (_ ∨ _))

/-- The octets that pieces stand for. -/
def piecesBytes (pieces : List String) : List UInt8 :=
  pieces.flatMap fun piece => textBytes piece.toList

theorem piecesBytes_cons (piece : String) (pieces : List String) :
    piecesBytes (piece :: pieces) = textBytes piece.toList ++ piecesBytes pieces := rfl

/-- Pieces that have tokens and stand for these octets together. -/
structure Cut (tokens : List String) (octets : List UInt8) (pieces : List String) : Prop where
  mem : ∀ piece ∈ pieces, piece ≠ "" ∧ piece ∈ tokens
  bytes_eq : piecesBytes pieces = octets

section Rules

instance : Std.LawfulEqCmp
    (compareLex (compareOn (α := String × String) (·.1)) (compareOn (·.2))) where
  eq_of_compare h := by
    rw [compareLex_eq_eq] at h
    exact Prod.ext (Std.LawfulEqOrd.eq_of_compare h.1) (Std.LawfulEqOrd.eq_of_compare h.2)

theorem extendRanks_eq_ok {ranks extended : MergeRanks} {n k : Nat} {entries : List String}
    {sides : String × String} (h : extendRanks ranks n entries = .ok extended)
    (hk : extended[sides]? = some k) :
    ranks[sides]? = some k ∨ ∃ entry ∈ entries, splitMerge entry = some sides := by
  induction entries generalizing ranks n with
  | nil =>
      cases h
      exact Or.inl hk
  | cons entry rest ih =>
      rw [extendRanks] at h
      cases hsplit : splitMerge entry with
      | none => simp [hsplit] at h
      | some entered =>
          rw [hsplit] at h
          rcases ih h with hold | ⟨later, hlater, hsides⟩
          · rw [Std.TreeMap.getElem?_insertIfNew] at hold
            split at hold
            · rename_i hentered
              rw [Std.LawfulEqCmp.compare_eq_iff_eq] at hentered
              exact Or.inr ⟨entry, List.mem_cons_self, hentered.1 ▸ hsplit⟩
            · exact Or.inl hold
          · exact Or.inr ⟨later, List.mem_cons_of_mem _ hlater, hsides⟩

theorem splitMerge_of_rank {v : Vocabulary} {merges : List String} {b : BytePair}
    (h : new v merges = .ok b) {left right : String} {k : Nat}
    (hk : rank? b.ranks left right = some k) :
    ∃ entry ∈ merges, splitMerge entry = some (left, right) := by
  rw [new] at h
  cases hranks : extendRanks ∅ 0 merges with
  | error reason => simp [hranks, Except.map] at h
  | ok ranks =>
      rw [hranks] at h
      cases h
      exact (extendRanks_eq_ok hranks hk).resolve_left (by simp)

end Rules

section Octets

theorem hexDigit?_upperHex : ∀ n < 16, hexDigit? (upperHex n) = some n := by decide

theorem upperHex_ne_plus : ∀ n < 16, upperHex n ≠ '+' := by decide

theorem octet?_octetToken (b : UInt8) : octet? (octetToken b).toList = some b := by
  have hlt := b.toNat_lt
  have hhigh : b.toNat / 16 < 16 := by omega
  have hlow : b.toNat % 16 < 16 := Nat.mod_lt _ (by decide)
  rw [octetToken, String.toList_ofList, octet?, hexNumber?, if_neg (upperHex_ne_plus _ hhigh),
    hexDigit?_upperHex _ hhigh, hexDigit?_upperHex _ hlow]
  simp only [Option.map_some, Nat.div_add_mod', UInt8.ofNat_toNat]

theorem piecesBytes_octetTokens (octets : List UInt8) :
    piecesBytes (octets.map octetToken) = octets := by
  induction octets with
  | nil => rfl
  | cons b rest ih => simpa [piecesBytes, textBytes, octet?_octetToken] using ih

theorem textBytes_append {tokens : List String} {left right : String}
    (h : Joins tokens left right) :
    textBytes (left ++ right).toList = textBytes left.toList ++ textBytes right.toList := by
  have hleft := Option.not_isSome_iff_eq_none.mp h.not_left
  have hright := Option.not_isSome_iff_eq_none.mp h.not_right
  have hjoined := Option.not_isSome_iff_eq_none.mp h.not_joined
  simp only [textBytes, hleft, hright, hjoined]
  rw [String.toList_append, List.map_append, Text.Utf8.encode, List.flatMap_append]
  rfl

theorem textBytes_singleton (c : Char) :
    textBytes (String.singleton c).toList = String.utf8EncodeChar (unmark c) := by
  simp [textBytes, octet?, Text.Utf8.encode]

end Octets

section Merging

variable {tokens : List String} {ranks : MergeRanks} {octets : List UInt8} {pieces : List String}

theorem Cut.cons {token : String} (hne : token ≠ "") (hmem : token ∈ tokens)
    (h : Cut tokens octets pieces) :
    Cut tokens (textBytes token.toList ++ octets) (token :: pieces) where
  mem := List.forall_mem_cons.mpr ⟨⟨hne, hmem⟩, h.mem⟩
  bytes_eq := by rw [piecesBytes_cons, h.bytes_eq]

theorem Cut.append {more : List UInt8} {rest : List String} (h : Cut tokens octets pieces)
    (hrest : Cut tokens more rest) : Cut tokens (octets ++ more) (pieces ++ rest) where
  mem piece hpiece := by
    rcases List.mem_append.mp hpiece with hpiece | hpiece
    · exact h.mem piece hpiece
    · exact hrest.mem piece hpiece
  bytes_eq := by
    rw [piecesBytes, List.flatMap_append, ← h.bytes_eq, ← hrest.bytes_eq]
    rfl

theorem Cut.mergeFirst {k : Nat}
    (hrules : ∀ left right, rank? ranks left right = some k → left ≠ "" → right ≠ "" →
      Joins tokens left right)
    (h : Cut tokens octets pieces) : Cut tokens octets (mergeFirst ranks k pieces) := by
  fun_induction BytePair.mergeFirst ranks k pieces generalizing octets with
  | case1 left right rest hrank =>
      obtain ⟨⟨hleft, -⟩, ⟨hright, -⟩, hrest⟩ := by simpa only [List.forall_mem_cons] using h.mem
      have hjoins := hrules left right hrank hleft hright
      have hcut := Cut.cons (by simp [hleft]) hjoins.mem ⟨hrest, rfl⟩
      rwa [textBytes_append hjoins, List.append_assoc, ← piecesBytes_cons, ← piecesBytes_cons,
        h.bytes_eq] at hcut
  | case2 left right rest hrank ih =>
      obtain ⟨hleft, hrest⟩ := List.forall_mem_cons.mp h.mem
      rw [← h.bytes_eq]
      exact (ih ⟨hrest, rfl⟩).cons hleft.1 hleft.2
  | case3 pieces hshort => exact h

theorem Cut.mergeTimes {n : Nat}
    (hrules : ∀ left right k, rank? ranks left right = some k → left ≠ "" → right ≠ "" →
      Joins tokens left right)
    (h : Cut tokens octets pieces) : Cut tokens octets (mergeTimes ranks n pieces) := by
  induction n generalizing pieces with
  | zero => exact h
  | succ n ih =>
      rw [BytePair.mergeTimes]
      cases leastRank ranks pieces with
      | none => exact h
      | some k => exact ih (h.mergeFirst fun left right => hrules left right k)

end Merging

section Characters

variable {tokens : List String} {bos : Option TokenId} {eos : List TokenId}
  {unknown : Option TokenId} {v : Vocabulary}

theorem isSome_id?_iff (h : Vocabulary.new tokens bos eos unknown = .ok v) {text : String} :
    (v.id? text).isSome ↔ text ∈ tokens := by
  rw [Vocabulary.id?_new h, Option.isSome_map, List.isSome_idxOf?]

theorem exists_id (h : Vocabulary.new tokens bos eos unknown = .ok v)
    (hsize : tokens.length ≤ 2 ^ 32) {text : String} (htext : text ∈ tokens) :
    ∃ id, v.id? text = some id ∧ v.token? id = some text := by
  have hid := Vocabulary.id?_new h text
  obtain ⟨rfl, -⟩ := Vocabulary.new_eq_ok h
  obtain ⟨i, hi⟩ := Option.isSome_iff_exists.mp (List.isSome_idxOf?.mpr htext)
  rw [hi] at hid
  obtain ⟨hlt, hget, -⟩ := List.idxOf?_eq_some_iff.mp hi
  refine ⟨UInt32.ofNat i, hid, ?_⟩
  rw [Vocabulary.token?, UInt32.toNat_ofNat_of_lt' (by rw [UInt32.size]; omega)]
  simp_all

/-- The character that is read for one that was written. -/
def reread (tokens : List String) (c : Char) : Char :=
  if spaceMarker.toString ∈ tokens then unmark c else c

theorem reread_of_not_mem {c : Char} (h : charPiece v c ∉ tokens) : reread tokens c = c := by
  rw [reread]
  split
  · rename_i hmarker
    rw [unmark, if_neg]
    rintro rfl
    exact h (by rwa [charPiece, if_neg (by simp [spaceMarker])])
  · rfl

theorem exists_charPiece {c : Char} (hc : charPiece v c ∈ tokens) :
    ∃ d : Char, charPiece v c = d.toString ∧ unmark d = reread tokens c := by
  rw [charPiece] at hc ⊢
  split at hc
  · rename_i hspace
    obtain ⟨rfl, -⟩ : c = ' ' ∧ usesMarker v = true := by simpa using hspace
    rw [if_pos hspace]
    exact ⟨spaceMarker, rfl, by rw [reread, if_pos hc]; rfl⟩
  · rename_i hplain
    refine ⟨c, by rw [if_neg hplain], ?_⟩
    rw [reread]
    split
    · rfl
    · rename_i hmarker
      rw [unmark, if_neg]
      rintro rfl
      exact hmarker hc

theorem cut_charPieces (h : Vocabulary.new tokens bos eos unknown = .ok v) {c : Char}
    (hc : Covers v tokens c) :
    Cut tokens (String.utf8EncodeChar (reread tokens c)) (charPieces v c) := by
  by_cases hpiece : charPiece v c ∈ tokens
  · rw [charPieces, if_pos ((isSome_id?_iff h).mpr hpiece)]
    obtain ⟨d, hd, hread⟩ := exists_charPiece hpiece
    rw [hd] at hpiece ⊢
    have hcut := Cut.cons (by simp) hpiece ⟨List.forall_mem_nil _, rfl⟩
    rwa [Char.toString, textBytes_singleton, hread, piecesBytes, List.flatMap_nil,
      List.append_nil] at hcut
  · rw [charPieces, if_neg (fun hsome => hpiece ((isSome_id?_iff h).mp hsome))]
    rw [reread_of_not_mem hpiece]
    refine ⟨fun piece hp => ?_, piecesBytes_octetTokens _⟩
    obtain ⟨b, hb, rfl⟩ := List.mem_map.mp hp
    exact ⟨by simp [octetToken], hc.resolve_left hpiece b hb⟩

theorem cut_initialPieces (h : Vocabulary.new tokens bos eos unknown = .ok v) {text : List Char}
    (htext : ∀ c ∈ text, Covers v tokens c) :
    Cut tokens (Text.Utf8.encode (text.map (reread tokens))) (initialPieces v text) := by
  induction text with
  | nil => exact ⟨List.forall_mem_nil _, rfl⟩
  | cons c text ih =>
      obtain ⟨hc, hrest⟩ := List.forall_mem_cons.mp htext
      exact (cut_charPieces h hc).append (ih hrest)

theorem map_token?_ids (h : Vocabulary.new tokens bos eos unknown = .ok v)
    (hsize : tokens.length ≤ 2 ^ 32) {pieces : List String}
    (hpieces : ∀ piece ∈ pieces, piece ∈ tokens) :
    (pieces.filterMap fun piece => (v.id? piece).or v.unknown).map v.token? = pieces.map some := by
  induction pieces with
  | nil => rfl
  | cons piece rest ih =>
      obtain ⟨hpiece, hrest⟩ := List.forall_mem_cons.mp hpieces
      obtain ⟨id, hid, htoken⟩ := exists_id h hsize hpiece
      rw [List.filterMap_cons_some (by rw [hid, Option.some_or]), List.map_cons, List.map_cons,
        ih hrest, htoken]

theorem bytes_of_map_token? {b : BytePair} {ids : List TokenId} {pieces : List String}
    (h : ids.map b.vocabulary.token? = pieces.map some) :
    b.tokenizer.bytes ids = piecesBytes pieces := by
  have hbytes : b.tokenizer.bytes ids = (ids.map b.vocabulary.token?).flatMap
      (fun token => token.elim [] fun text => textBytes text.toList) := by
    rw [List.flatMap_map, Tokenizer.bytes]
    congr 1
    funext id
    change b.tokenBytes id = _
    rw [tokenBytes]
    cases b.vocabulary.token? id <;> rfl
  rw [hbytes, h, List.flatMap_map]
  rfl

end Characters

/-- A text whose characters all have tokens, whole or by their octets, is encoded without loss:
each piece becomes its own token, and the tokens read as the text, with the marker read as a space
when it is a token. -/
theorem decode_encode_text {tokens merges : List String} {bos : Option TokenId}
    {eos : List TokenId} {unknown : Option TokenId} {v : Vocabulary} {b : BytePair}
    (hv : Vocabulary.new tokens bos eos unknown = .ok v) (hb : new v merges = .ok b)
    (hsize : tokens.length ≤ 2 ^ 32) (hrules : RulesJoin tokens merges) {text : String}
    (htext : ∀ c ∈ text.toList, Covers v tokens c) :
    (b.encode text).map v.token? = (merge b.ranks (initialPieces v text.toList)).map some ∧
      b.tokenizer.decode (b.encode text) =
        if "\u2581" ∈ tokens then
          String.ofList (text.toList.map fun c => if c = '\u2581' then ' ' else c)
        else text := by
  have hvocabulary : b.vocabulary = v := new_eq_ok hb
  have hcut : Cut tokens (Text.Utf8.encode (text.toList.map (reread tokens)))
      (merge b.ranks (initialPieces v text.toList)) := by
    refine (cut_initialPieces hv htext).mergeTimes fun left right k hk hleft hright => ?_
    obtain ⟨entry, hentry, hsplit⟩ := splitMerge_of_rank hb hk
    exact hrules entry hentry left right hsplit hleft hright
  have hids := map_token?_ids hv hsize fun piece hpiece => (hcut.mem piece hpiece).2
  rw [encode, hvocabulary]
  refine ⟨hids, ?_⟩
  rw [← hvocabulary] at hids
  rw [Tokenizer.decode, ← hvocabulary, bytes_of_map_token? hids, hvocabulary, hcut.bytes_eq,
    lossy_encode]
  by_cases hmarker : "\u2581" ∈ tokens
  · have hreread : reread tokens = unmark := funext fun c => if_pos hmarker
    rw [hreread, if_pos hmarker]
    rfl
  · have hreread : reread tokens = id := funext fun c => if_neg hmarker
    rw [hreread, if_neg hmarker, List.map_id, String.ofList_toList]

theorem decode_encode_text_accented :
    let tokens := ["<unk>", "\u2581", "h", "e", "he", "<0xC3>", "<0xA9>"]
    ∃ v b, Vocabulary.new tokens none [] (some 0) = .ok v ∧ new v ["h e"] = .ok b ∧
      tokens.length ≤ 2 ^ 32 ∧ RulesJoin tokens ["h e"] ∧
      (∀ c ∈ "he \u00E9".toList, Covers v tokens c) ∧
      b.encode "he \u00E9" = [4, 1, 5, 6] ∧
      b.tokenizer.decode (b.encode "he \u00E9") = "he \u00E9" := by
  intro tokens
  obtain ⟨v, hv⟩ : ∃ v, Vocabulary.new tokens none [] (some 0) = .ok v := ⟨_, rfl⟩
  obtain ⟨b, hb⟩ : ∃ b, new v ["h e"] = .ok b := by cases hv; exact ⟨_, rfl⟩
  have hrules : RulesJoin tokens ["h e"] := by
    intro entry hentry left right hsplit hleft hright
    obtain rfl := List.mem_singleton.mp hentry
    have hsides : splitMerge "h e" = some ("h", "e") := by decide +kernel
    obtain ⟨rfl, rfl⟩ : "h" = left ∧ "e" = right := by simpa [hsides] using hsplit
    exact ⟨by decide +kernel, by decide +kernel, by decide +kernel, by decide +kernel⟩
  have htext : ∀ c ∈ "he \u00E9".toList, Covers v tokens c := by
    cases hv
    rw [show "he \u00E9".toList = ['h', 'e', ' ', '\u00E9'] from rfl]
    simp only [List.forall_mem_cons]
    refine ⟨?_, ?_, ?_, ?_, List.forall_mem_nil _⟩ <;> decide +kernel
  have hdecode := (decode_encode_text hv hb (by decide) hrules htext).2
  refine ⟨v, b, hv, hb, by decide, hrules, htext, ?_, ?_⟩
  · cases hv
    cases hb
    decide +kernel
  · rw [hdecode]
    decide +kernel

end Dialogue.BytePair
