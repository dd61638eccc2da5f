import Mathlib.Data.List.Forall2
import Mathlib.Data.List.Induction
import Dialogue.Backend.Registry

namespace Dialogue.Registry

variable {α : Type}

def SameChar (c d : Char) : Prop :=
  c = d ∨ c = '-' ∧ d = '_' ∨ c = '_' ∧ d = '-'

/-- Names that differ by dashes for underscores only. -/
def SameName (a b : String) : Prop :=
  List.Forall₂ SameChar a.toList b.toList

theorem normalizeChar_eq_iff (c d : Char) :
    normalizeChar c = normalizeChar d ↔ SameChar c d := by
  simp only [normalizeChar, SameChar]
  grind

theorem normalize_eq_iff (a b : String) : normalize a = normalize b ↔ SameName a b := by
  have hmap : ∀ as bs : List Char,
      as.map normalizeChar = bs.map normalizeChar ↔ List.Forall₂ SameChar as bs := by
    intro as bs
    rw [← List.forall₂_eq_eq_eq, List.forall₂_map_left_iff, List.forall₂_map_right_iff]
    simp only [normalizeChar_eq_iff]
  rw [← String.toList_inj, normalize, normalize, String.toList_ofList, String.toList_ofList,
    hmap, SameName]

instance (a b : String) : Decidable (SameName a b) :=
  decidable_of_iff _ (normalize_eq_iff a b)

theorem dash_not_mem_normalize (name : String) : '-' ∉ (normalize name).toList := by
  rw [normalize, String.toList_ofList, List.mem_map]
  rintro ⟨c, -, hc⟩
  simp only [normalizeChar] at hc
  grind

theorem normalize_of_dash_not_mem {name : String} (h : '-' ∉ name.toList) :
    normalize name = name := by
  have hmap : name.toList.map normalizeChar = name.toList := by
    conv_rhs => rw [← List.map_id name.toList]
    refine List.map_congr_left fun c hc => if_neg ?_
    rintro rfl
    exact h hc
  rw [normalize, hmap, String.ofList_toList]

/-- An entry was made under a name, and none under the same name after it. -/
def LastUnder (history : List (String × α)) (name : String) (entry : α) : Prop :=
  ∃ before same after, history = before ++ (same, entry) :: after ∧ SameName same name ∧
    ∀ e ∈ after, ¬ SameName e.1 name

theorem lastUnder_nil (name : String) (entry : α) : ¬ LastUnder [] name entry := by
  rintro ⟨before, same, after, hhistory, -⟩
  simp at hhistory

theorem lastUnder_concat (history : List (String × α)) (latest name : String) (new entry : α) :
    LastUnder (history ++ [(latest, new)]) name entry ↔
      SameName latest name ∧ new = entry ∨
        ¬ SameName latest name ∧ LastUnder history name entry := by
  constructor
  · rintro ⟨before, same, after, hhistory, hsame, hafter⟩
    rcases List.eq_nil_or_concat after with rfl | ⟨after, e, rfl⟩
    · obtain ⟨-, hlast⟩ := List.append_inj' hhistory rfl
      cases hlast
      exact .inl ⟨hsame, rfl⟩
    · rw [List.concat_eq_append, ← List.cons_append, ← List.append_assoc] at hhistory
      obtain ⟨rfl, hlast⟩ := List.append_inj' hhistory rfl
      cases hlast
      simp only [List.concat_eq_append, List.forall_mem_append, List.forall_mem_singleton] at hafter
      exact .inr ⟨hafter.2, before, same, after, rfl, hsame, hafter.1⟩
  · rintro (⟨hsame, rfl⟩ | ⟨hother, before, same, after, rfl, hsame, hafter⟩)
    · exact ⟨history, latest, [], rfl, hsame, List.forall_mem_nil _⟩
    · refine ⟨before, same, after ++ [(latest, new)], by simp, hsame, ?_⟩
      simp only [List.forall_mem_append, List.forall_mem_singleton]
      exact ⟨hafter, hother⟩

theorem exists_lastUnder_iff (history : List (String × α)) (name : String) :
    (∃ entry, LastUnder history name entry) ↔ ∃ e ∈ history, SameName e.1 name := by
  induction history using List.reverseRecOn with
  | nil => simp [lastUnder_nil]
  | append_singleton history e ih =>
      obtain ⟨latest, new⟩ := e
      simp only [lastUnder_concat, List.mem_append, List.mem_singleton, or_and_right, exists_or,
        exists_and_left, exists_eq_left, exists_eq', and_true, ih]
      by_cases hsame : SameName latest name <;> simp [hsame]

/-- The registry in which entries were made one after another. -/
def ofHistory (history : List (String × α)) : Registry α :=
  history.foldl (fun r e => r.including e.1 e.2) {}

theorem ofHistory_concat (history : List (String × α)) (name : String) (entry : α) :
    ofHistory (history ++ [(name, entry)]) = (ofHistory history).including name entry := by
  rw [ofHistory, List.foldl_append]
  rfl

theorem getElem?_including (r : Registry α) (name key : String) (entry : α) :
    (r.including name entry).entries[key]? =
      if normalize name = key then some entry else r.entries[key]? := by
  simp only [including, register, Std.TreeMap.getElem?_insert, Std.compare_eq_iff_eq]

theorem getElem?_ofHistory (history : List (String × α)) (name : String) (entry : α) :
    (ofHistory history).entries[normalize name]? = some entry ↔ LastUnder history name entry := by
  induction history using List.reverseRecOn with
  | nil => simp [ofHistory, lastUnder_nil]
  | append_singleton history e ih =>
      rw [ofHistory_concat, getElem?_including, lastUnder_concat, ← normalize_eq_iff]
      split <;> simp_all

theorem getElem?_ofHistory_eq_none (history : List (String × α)) (name : String) :
    (ofHistory history).entries[normalize name]? = none ↔
      ∀ e ∈ history, ¬ SameName e.1 name := by
  have hsome := exists_lastUnder_iff history name
  simp only [← getElem?_ofHistory, ← Option.isSome_iff_exists] at hsome
  rw [← Option.not_isSome_iff_eq_none, hsome]
  push Not
  rfl

theorem resolve_eq_ok_iff (history : List (String × α)) (name : String) (entry : α) :
    (ofHistory history).resolve name = .ok entry ↔ LastUnder history name entry := by
  rw [← getElem?_ofHistory, resolve]
  split <;> simp_all

theorem resolve_eq_error_iff (history : List (String × α)) (name : String)
    (reason : Backend.Error) :
    (ofHistory history).resolve name = .error reason ↔
      (∀ e ∈ history, ¬ SameName e.1 name) ∧
        reason = .unknownModel name (ofHistory history).names := by
  rw [← getElem?_ofHistory_eq_none, resolve]
  split
  · simp_all
  · rename_i hnone
    simp only [Except.error.injEq, hnone, true_and]
    exact eq_comm

theorem ascending_names (r : Registry α) : r.names.Pairwise (· < ·) :=
  (Std.TreeMap.ordered_keys (t := r.entries)).imp compareOfLessAndEq_eq_lt.mp

theorem mem_names_ofHistory (history : List (String × α)) (key : String) :
    key ∈ (ofHistory history).names ↔ ∃ e ∈ history, normalize e.1 = key := by
  rw [names, Std.TreeMap.mem_keys, Std.TreeMap.mem_iff_isSome_getElem?]
  induction history using List.reverseRecOn with
  | nil => simp [ofHistory]
  | append_singleton history e ih =>
      rw [ofHistory_concat, getElem?_including]
      split <;> simp_all

/-- What is done with registries. They are told apart by the order in which they came to be. -/
inductive Act (α : Type) where
  | create
  | clone (i : Nat)
  | register (i : Nat) (name : String) (entry : α)
  | including (i : Nat) (name : String) (entry : α)

def perform (registries : List (Registry α)) : Act α → Option α × List (Registry α)
  | .create => (none, registries ++ [{}])
  | .clone i => (none, registries ++ registries[i]?.toList)
  | .register i name entry =>
    (registries[i]?.bind fun r => (r.register name entry).1,
      registries.modify i fun r => (r.register name entry).2)
  | .including i name entry => (none, registries.modify i fun r => r.including name entry)

def run (acts : List (Act α)) : List (Registry α) :=
  acts.foldl (fun registries act => (perform registries act).2) []

/-- What was entered in each registry; a clone begins with what its original had. -/
def note (histories : List (List (String × α))) : Act α → List (List (String × α))
  | .create => histories ++ [[]]
  | .clone i => histories ++ histories[i]?.toList
  | .register i name entry | .including i name entry =>
    histories.modify i (· ++ [(name, entry)])

def histories (acts : List (Act α)) : List (List (String × α)) :=
  acts.foldl note []

theorem run_concat (acts : List (Act α)) (act : Act α) :
    run (acts ++ [act]) = (perform (run acts) act).2 := by
  rw [run, List.foldl_append]
  rfl

theorem histories_concat (acts : List (Act α)) (act : Act α) :
    histories (acts ++ [act]) = note (histories acts) act := by
  rw [histories, List.foldl_append]
  rfl

theorem modify_map_ofHistory (hs : List (List (String × α))) (i : Nat) (name : String)
    (entry : α) :
    (hs.map ofHistory).modify i (fun r => r.including name entry) =
      (hs.modify i (· ++ [(name, entry)])).map ofHistory := by
  induction hs generalizing i with
  | nil => simp
  | cons history rest ih =>
      cases i with
      | zero => simp [ofHistory_concat]
      | succ i => simp [ih]

theorem perform_map_ofHistory (hs : List (List (String × α))) (act : Act α) :
    (perform (hs.map ofHistory) act).2 = (note hs act).map ofHistory := by
  cases act with
  | create => simp [perform, note, ofHistory]
  | clone i => cases h : hs[i]? <;> simp [perform, note, h]
  | register i name entry => exact modify_map_ofHistory hs i name entry
  | including i name entry => exact modify_map_ofHistory hs i name entry

theorem run_eq (acts : List (Act α)) : run acts = (histories acts).map ofHistory := by
  induction acts using List.reverseRecOn with
  | nil => rfl
  | append_singleton acts act ih =>
      rw [run_concat, ih, perform_map_ofHistory, histories_concat]

/-- Whatever was done with registries and their clones, each resolves a name to what was entered
last under the same name, and entering one answers what it replaces. An unknown name is refused as
it was given, together with the names entered, which are the normalized ones in ascending order. -/
theorem last_entry_wins {acts : List (Act α)} {i : Nat} {r : Registry α}
    (hr : (run acts)[i]? = some r) :
    ∃ history, (histories acts)[i]? = some history ∧
      (∀ name entry, r.resolve name = .ok entry ↔ LastUnder history name entry) ∧
      (∀ name reason, r.resolve name = .error reason ↔
        (∀ e ∈ history, ¬ SameName e.1 name) ∧ reason = .unknownModel name r.names) ∧
      (∀ name entry old, (perform (run acts) (.register i name entry)).1 = some old ↔
        LastUnder history name old) ∧
      r.names.Pairwise (· < ·) ∧
      (∀ key, key ∈ r.names ↔ ∃ e ∈ history, normalize e.1 = key) ∧
      ∀ key ∈ r.names, '-' ∉ key.toList ∧ ∃ entry, r.resolve key = .ok entry := by
  have hmap := hr
  rw [run_eq, List.getElem?_map, Option.map_eq_some_iff] at hmap
  obtain ⟨history, hhistory, rfl⟩ := hmap
  refine ⟨history, hhistory, resolve_eq_ok_iff history, resolve_eq_error_iff history,
    fun name entry old => ?_, ascending_names _, mem_names_ofHistory history, fun key hkey => ?_⟩
  · rw [perform, hr]
    exact getElem?_ofHistory history name old
  · obtain ⟨e, he, rfl⟩ := (mem_names_ofHistory history key).mp hkey
    have hdash := dash_not_mem_normalize e.1
    refine ⟨hdash, ?_⟩
    simp only [resolve_eq_ok_iff]
    exact (exists_lastUnder_iff history _).mpr
      ⟨e, he, (normalize_eq_iff _ _).mp (normalize_of_dash_not_mem hdash).symm⟩

/-- A clone keeps the entry that its original replaces later. -/
theorem last_entry_wins_cloned :
    let acts : List (Act Nat) :=
      [.create, .register 0 "a-b" 1, .clone 0, .register 0 "a_b" 2, .including 1 "c" 3]
    ∃ r, (run acts)[1]? = some r ∧ r.resolve "a_b" = .ok 1 ∧
      r.resolve "d-" = .error (.unknownModel "d-" r.names) ∧
      (perform (run acts) (.register 1 "a_b" 4)).1 = some 1 ∧ "a_b" ∈ r.names := by
  intro acts
  obtain ⟨r, hr⟩ : ∃ r, (run acts)[1]? = some r := ⟨_, rfl⟩
  obtain ⟨history, hhistory, hfound, hunknown, hreplaced, -, hnames, -⟩ := last_entry_wins hr
  obtain rfl : [("a-b", 1), ("c", 3)] = history := Option.some.inj hhistory
  have hlast : LastUnder [("a-b", 1), ("c", 3)] "a_b" 1 :=
    ⟨[], "a-b", [("c", 3)], rfl, by decide +kernel, by decide +kernel⟩
  exact ⟨r, hr, (hfound _ _).mpr hlast, (hunknown _ _).mpr ⟨by decide +kernel, rfl⟩,
    (hreplaced _ _ _).mpr hlast, (hnames _).mpr ⟨("a-b", 1), by simp, by decide +kernel⟩⟩

end Dialogue.Registry
