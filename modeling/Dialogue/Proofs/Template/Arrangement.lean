import Mathlib.Data.List.Nodup
import Dialogue.Template
import Dialogue.Proofs.Json.Printing

namespace Dialogue

namespace Json

theorem members?_cons (m : List Char × Value) (ms : List (List Char × Value)) (fields : Fields) :
    members? (m :: ms) = some fields ↔
      ∃ name rest, unescape m.1 = some name ∧ members? ms = some rest ∧
        fields = (String.ofList name, m.2) :: rest := by
  obtain ⟨key, v⟩ := m
  simp only [members?, List.mapM_cons, bind, Option.bind_eq_some_iff, Option.map_eq_some_iff, pure,
    Option.some.injEq]
  constructor
  · rintro ⟨_, ⟨name, hname, rfl⟩, rest, hrest, rfl⟩
    exact ⟨name, rest, hname, hrest, rfl⟩
  · rintro ⟨name, rest, hname, hrest, rfl⟩
    exact ⟨_, ⟨name, hname, rfl⟩, rest, hrest, rfl⟩

theorem members?_perm {ms ms' : List (List Char × Value)} (hperm : ms.Perm ms') {fields : Fields}
    (h : members? ms = some fields) :
    ∃ fields', members? ms' = some fields' ∧ fields.Perm fields' := by
  induction hperm generalizing fields with
  | nil => exact ⟨fields, h, .refl fields⟩
  | cons m _ ih =>
      obtain ⟨name, rest, hname, hrest, rfl⟩ := (members?_cons _ _ _).mp h
      obtain ⟨rest', hrest', hfields⟩ := ih hrest
      exact ⟨_, (members?_cons _ _ _).mpr ⟨name, rest', hname, hrest', rfl⟩, hfields.cons _⟩
  | swap m m' ms =>
      obtain ⟨name', _, hname', htail, rfl⟩ := (members?_cons _ _ _).mp h
      obtain ⟨name, rest, hname, hrest, rfl⟩ := (members?_cons _ _ _).mp htail
      have htail' := (members?_cons m' ms _).mpr ⟨name', rest, hname', hrest, rfl⟩
      exact ⟨_, (members?_cons _ _ _).mpr ⟨name, _, hname, htail', rfl⟩, .swap _ _ rest⟩
  | trans _ _ ih ih' =>
      obtain ⟨fields', hfields', hperm⟩ := ih h
      obtain ⟨fields'', hfields'', hperm'⟩ := ih' hfields'
      exact ⟨fields'', hfields'', hperm.trans hperm'⟩

theorem members?_escape (fields : Fields) :
    members? (fields.map fun (name, v) => (escape name.toList, v)) = some fields := by
  induction fields with
  | nil => rfl
  | cons f fields ih =>
      exact (members?_cons _ _ _).mpr
        ⟨f.1.toList, fields, unescape_escape _, ih, by rw [String.ofList_toList]⟩

namespace Fields

theorem filter_name {fields : Fields} (h : (fields.map (·.1)).Nodup) {f : String × Value}
    (hf : f ∈ fields) : fields.filter (·.1 = f.1) = [f] := by
  induction fields with
  | nil => cases hf
  | cons g fields ih =>
      rw [List.map_cons, List.nodup_cons] at h
      rcases List.mem_cons.mp hf with rfl | hf
      · rw [List.filter_cons_of_pos (by simp), List.filter_eq_nil_iff.mpr]
        intro g hg
        simp only [decide_eq_true_eq]
        exact fun hname => h.1 (hname ▸ List.mem_map_of_mem hg)
      · have hname : g.1 ≠ f.1 := fun hname => h.1 (hname ▸ List.mem_map_of_mem hf)
        rw [List.filter_cons_of_neg (by simpa using hname), ih h.2 hf]

/-- A field is given once, or it is missing and as its default. -/
def Gives (fields : Fields) (f default : String × Value) : Prop :=
  fields.filter (·.1 = f.1) = [f] ∨ fields.filter (·.1 = f.1) = [] ∧ f = default

variable {fields : Fields} {f default : String × Value}

theorem Gives.perm {fields' : Fields} (h : fields.Gives f default) (hperm : fields.Perm fields') :
    fields'.Gives f default := by
  have hfilter := hperm.filter (·.1 = f.1)
  rcases h with h | ⟨h, hdefault⟩
  · rw [h] at hfilter
    exact .inl (List.singleton_perm.mp hfilter).symm
  · rw [h] at hfilter
    exact .inr ⟨List.nil_perm.mp hfilter, hdefault⟩

theorem Gives.leaveOut {g : String × Value} (h : Gives (g :: fields) f default)
    (hg : g.1 = f.1 → g = default) : fields.Gives f default := by
  by_cases hname : g.1 = f.1
  · rw [Gives, List.filter_cons_of_pos (by simpa using hname)] at h
    rcases h with h | ⟨h, -⟩
    · obtain ⟨rfl, hrest⟩ := List.cons.inj h
      exact .inr ⟨hrest, hg rfl⟩
    · cases h
  · rwa [Gives, List.filter_cons_of_neg (by simpa using hname)] at h

theorem Gives.add {g : String × Value} (h : fields.Gives f default) (hname : g.1 ≠ f.1) :
    Gives (g :: fields) f default := by
  rwa [Gives, List.filter_cons_of_neg (by simpa using hname)]

theorem Gives.length_le (h : fields.Gives f default) : (fields.filter (·.1 = f.1)).length ≤ 1 := by
  rcases h with h | ⟨h, -⟩ <;> simp [h]

theorem Gives.getD_eq {α : Type} {name : String} {v w : Value} {read : Value → Option α}
    {x missing : α} (h : fields.Gives (name, v) (name, w)) (hread : read v = some x)
    (hmissing : read w = some missing) : fields.getD name read missing = some x := by
  have hget : fields.get? name = (fields.filter (·.1 = name)).head?.map (·.2) := by
    rw [get?, List.head?_filter]
  rcases h with h | ⟨h, hdefault⟩
  · simp [getD, hget, h, hread]
  · cases hdefault
    rw [hread] at hmissing
    cases hmissing
    simp [getD, hget, h]

end Fields

end Json

namespace Template

def members (t : Template) : List (List Char × Json.Value) :=
  t.toFields.map fun (name, v) => (Json.escape name.toList, v)

/-- The objects that come from that of a template when its fields are put in any order, fields that
are as in the default are left out, and others are added under unknown names. -/
inductive Arranged (t : Template) : List (List Char × Json.Value) → Prop
  | whole : Arranged t t.members
  | permute {ms ms' : List (List Char × Json.Value)} (h : Arranged t ms) (hperm : ms.Perm ms') :
      Arranged t ms'
  | leaveOut {m : List Char × Json.Value} {ms : List (List Char × Json.Value)}
      (h : Arranged t (m :: ms)) (hdefault : m ∈ ({} : Template).members) : Arranged t ms
  | add {ms : List (List Char × Json.Value)} (h : Arranged t ms) {key : List Char} {name : String}
      (hkey : Json.unescape key = some name.toList) (hname : name ∉ fieldNames)
      (v : Json.Value) : Arranged t ((key, v) :: ms)

/-- Each field of a template is given, or left out as in the default. -/
def Holds (t : Template) (fields : Json.Fields) : Prop :=
  ∀ f default, (f, default) ∈ t.toFields.zip ({} : Template).toFields → fields.Gives f default

theorem map_fst_toFields (t : Template) : t.toFields.map (·.1) = fieldNames := rfl

theorem nodup_toFields (t : Template) : (t.toFields.map (·.1)).Nodup := by
  rw [map_fst_toFields]
  decide

theorem mem_fieldNames {t : Template} {f : String × Json.Value} (hf : f ∈ t.toFields) :
    f.1 ∈ fieldNames := by
  rw [← map_fst_toFields t]
  exact List.mem_map_of_mem hf

theorem eq_of_mem_toFields {t : Template} {f g : String × Json.Value} (hf : f ∈ t.toFields)
    (hg : g ∈ t.toFields) (hname : f.1 = g.1) : f = g := by
  have hfilter := Json.Fields.filter_name t.nodup_toFields hf
  rw [hname, Json.Fields.filter_name t.nodup_toFields hg] at hfilter
  exact (List.singleton_inj.mp hfilter).symm

theorem fst_eq_of_mem_zip {t : Template} {f default : String × Json.Value}
    (h : (f, default) ∈ t.toFields.zip ({} : Template).toFields) : f.1 = default.1 := by
  obtain ⟨i, hi⟩ := List.mem_iff_getElem?.mp h
  obtain ⟨hf, hdefault⟩ := List.getElem?_zip_eq_some.mp hi
  have hnames := congrArg (·[i]?) (t.map_fst_toFields.trans (map_fst_toFields {}).symm)
  rw [List.getElem?_map, List.getElem?_map, hf, hdefault] at hnames
  exact Option.some.inj hnames

theorem exists_mem_zip {t : Template} {f : String × Json.Value} (hf : f ∈ t.toFields) :
    ∃ default, (f, default) ∈ t.toFields.zip ({} : Template).toFields := by
  have hlength : t.toFields.length = ({} : Template).toFields.length := by
    simp only [toFields, List.length_cons, List.length_nil]
  rw [← List.map_fst_zip hlength.le, List.mem_map] at hf
  obtain ⟨pair, hpair, rfl⟩ := hf
  exact ⟨pair.2, hpair⟩

theorem holds_toFields (t : Template) : t.Holds t.toFields := fun _ _ h =>
  .inl (Json.Fields.filter_name t.nodup_toFields (List.of_mem_zip h).1)

theorem Holds.perm {t : Template} {fields fields' : Json.Fields} (h : t.Holds fields)
    (hperm : fields.Perm fields') : t.Holds fields' :=
  fun f default hf => (h f default hf).perm hperm

theorem Holds.leaveOut {t : Template} {g : String × Json.Value} {fields : Json.Fields}
    (h : t.Holds (g :: fields)) (hg : g ∈ ({} : Template).toFields) : t.Holds fields := by
  intro f default hf
  refine (h f default hf).leaveOut fun hname => ?_
  exact eq_of_mem_toFields hg (List.of_mem_zip hf).2 (hname.trans (fst_eq_of_mem_zip hf))

theorem Holds.add {t : Template} {g : String × Json.Value} {fields : Json.Fields}
    (h : t.Holds fields) (hg : g.1 ∉ fieldNames) : t.Holds (g :: fields) := by
  intro f default hf
  refine (h f default hf).add fun hname => hg ?_
  exact hname ▸ mem_fieldNames (List.of_mem_zip hf).1

theorem Arranged.holds {t : Template} {ms : List (List Char × Json.Value)} (h : t.Arranged ms) :
    ∃ fields, Json.members? ms = some fields ∧ t.Holds fields := by
  induction h with
  | whole => exact ⟨t.toFields, Json.members?_escape t.toFields, t.holds_toFields⟩
  | permute _ hperm ih =>
      obtain ⟨fields, hfields, hholds⟩ := ih
      obtain ⟨fields', hfields', hperm⟩ := Json.members?_perm hperm hfields
      exact ⟨fields', hfields', hholds.perm hperm⟩
  | leaveOut _ hdefault ih =>
      obtain ⟨_, hwhole, hholds⟩ := ih
      obtain ⟨name, fields, hname, hfields, rfl⟩ := (Json.members?_cons _ _ _).mp hwhole
      obtain ⟨f, hf, rfl⟩ := List.mem_map.mp hdefault
      rw [Json.unescape_escape, Option.some.injEq] at hname
      rw [← hname, String.ofList_toList] at hholds
      exact ⟨fields, hfields, hholds.leaveOut hf⟩
  | add _ hkey hname v ih =>
      obtain ⟨fields, hfields, hholds⟩ := ih
      refine ⟨_, (Json.members?_cons _ _ _).mpr ⟨_, fields, hkey, hfields, rfl⟩, hholds.add ?_⟩
      rwa [String.ofList_toList]

theorem Holds.areUnique {t : Template} {fields : Json.Fields} (h : t.Holds fields) :
    fields.areUnique fieldNames = true := by
  rw [Json.Fields.areUnique, List.all_eq_true, ← map_fst_toFields t, List.forall_mem_map]
  intro f hf
  obtain ⟨default, hdefault⟩ := exists_mem_zip hf
  exact decide_eq_true (h f default hdefault).length_le

theorem text?_ofText (s : String) : (Json.Value.ofText s).text? = some s := by
  simp [Json.Value.ofText, Json.Value.text?, Json.unescape_escape]

theorem list?_ofText (ss : List String) :
    (Json.Value.array (ss.map .ofText)).list? Json.Value.text? = some ss := by
  rw [Json.Value.list?]
  induction ss with
  | nil => rfl
  | cons s ss ih =>
      rw [List.map_cons, List.mapM_cons, text?_ofText, ih]
      rfl

theorem Holds.getD_eq {t : Template} {fields : Json.Fields} (h : t.Holds fields) {α : Type}
    {name : String} {v w : Json.Value} {read : Json.Value → Option α} {x missing : α} (i : Nat)
    (hi : (t.toFields.zip ({} : Template).toFields)[i]? = some ((name, v), (name, w)))
    (hread : read v = some x) (hmissing : read w = some missing) :
    fields.getD name read missing = some x :=
  (h _ _ (List.mem_of_getElem? hi)).getD_eq hread hmissing

theorem Holds.ofFields_eq {t : Template} {fields : Json.Fields} (h : t.Holds fields) :
    ofFields fields = some t := by
  have htext {name : String} {s missing : String} (i : Nat)
      (hi : (t.toFields.zip ({} : Template).toFields)[i]? =
        some ((name, .ofText s), (name, .ofText missing))) :
      fields.getD name Json.Value.text? missing = some s :=
    h.getD_eq i hi (text?_ofText s) (text?_ofText missing)
  have hstops := h.getD_eq 8 rfl (list?_ofText t.stopStrings) (list?_ofText ["</s>"])
  have hbos : fields.getD "add_bos" Json.Value.bool? true = some t.addBos := h.getD_eq 9 rfl rfl rfl
  simp only [ofFields, htext 0 rfl, htext 1 rfl, htext 2 rfl, htext 3 rfl, htext 4 rfl, htext 5 rfl,
    htext 6 rfl, htext 7 rfl, hstops, hbos, bind, Option.bind_some]

theorem Arranged.ofValue_eq {t : Template} {ms : List (List Char × Json.Value)}
    (h : t.Arranged ms) : ofValue (.object ms) = some t := by
  obtain ⟨fields, hfields, hholds⟩ := h.holds
  simp only [ofValue, Json.fields?, Json.objectFields?, hfields, hholds.areUnique, bind,
    Option.bind_some, if_true, hholds.ofFields_eq]

theorem writable_toValue (t : Template) : t.toValue.Writable := by
  have hvalues : ∀ f ∈ t.toFields, f.2.Writable := by
    simp only [toFields, List.forall_mem_cons]
    have hstops : (Json.Value.array (t.stopStrings.map .ofText)).Writable :=
      Json.writable_array (List.forall_mem_map.mpr fun s _ => Json.writable_ofText s)
    exact ⟨Json.writable_ofText _, Json.writable_ofText _, Json.writable_ofText _,
      Json.writable_ofText _, Json.writable_ofText _, Json.writable_ofText _,
      Json.writable_ofText _, Json.writable_ofText _, hstops, Json.writable_bool _,
      List.forall_mem_nil _⟩
  exact Json.writable_object (List.forall_mem_map.mpr fun f hf =>
    ⟨Json.escaped_escape _, hvalues f hf⟩)

theorem ofJson_of_arranged {t : Template} {ms : List (List Char × Json.Value)}
    (h : t.Arranged ms) {text : String} (htext : Json.Spelled text (.object ms)) :
    ofJson text = some t := by
  rw [ofJson, Json.parse_of_spelled htext]
  exact h.ofValue_eq

/-- A template is read back from its compact text, and from every text of an object that comes from
it by another order, by leaving out what is as in the default, and by further fields. -/
theorem arranged_reads_back (t : Template) :
    Json.Spelled t.toJson t.toValue ∧ ofJson t.toJson = some t ∧
      ∀ ms text, t.Arranged ms → Json.Spelled text (.object ms) → ofJson text = some t := by
  have hspelled := Json.spelled_print t.writable_toValue
  exact ⟨hspelled, ofJson_of_arranged .whole hspelled, fun ms text h => ofJson_of_arranged h⟩

theorem Arranged.leaveOut_append {t : Template} {left ms : List (List Char × Json.Value)}
    (h : t.Arranged (left ++ ms)) (hleft : left ⊆ ({} : Template).members) : t.Arranged ms := by
  induction left with
  | nil => exact h
  | cons m left ih =>
      rw [List.cons_subset] at hleft
      exact ih (h.leaveOut hleft.1) hleft.2

/-- What differs from the default is given after a field that no template has. -/
theorem arranged_reads_back_rotated :
    let t : Template := { system := "\x01", addBos := false }
    let text := "\x7b\"\\u0078\":[true],\"add_bos\":false ,\n\"system\":\"\\u0001\"\x7d"
    let ms := [(['\\', 'u', '0', '0', '7', '8'], .array [.bool true]),
      (Json.escape "add_bos".toList, .bool false), (Json.escape "system".toList, .ofText "\x01")]
    t.Arranged ms ∧ Json.Spelled text (.object ms) ∧ ofJson text = some t := by
  intro t text ms
  have htext : text.toList =
      ['{', '"', '\\', 'u', '0', '0', '7', '8', '"', ':', '[', 't', 'r', 'u', 'e', ']', ',', '"',
        'a', 'd', 'd', '_', 'b', 'o', 's', '"', ':', 'f', 'a', 'l', 's', 'e', ' ', ',', '\n', '"',
        's', 'y', 's', 't', 'e', 'm', '"', ':', '"', '\\', 'u', '0', '0', '0', '1', '"', '}'] := by
    decide +kernel
  have hparse : Json.parse text = some (.object ms) := by
    simp only [Json.parse, htext, ms]
    rfl
  have hspelled := (Json.parse_eq_some_iff text _).mp hparse
  -- The first field goes to the end, so that those in between can be left out.
  have hrotated : t.Arranged ((({} : Template).members.drop 1).take 8 ++ ms.drop 1) :=
    Arranged.whole.permute
      (List.perm_append_singleton (Json.escape "system".toList, Json.Value.ofText "\x01")
        ((({} : Template).members.drop 1).take 8 ++
          [(Json.escape "add_bos".toList, Json.Value.bool false)])).symm
  have hkept := hrotated.leaveOut_append fun _ hm => List.mem_of_mem_drop (List.mem_of_mem_take hm)
  have hkey : Json.unescape ['\\', 'u', '0', '0', '7', '8'] = some "x".toList := by rfl
  have harranged : t.Arranged ms := hkept.add hkey (by decide) _
  exact ⟨harranged, hspelled, (arranged_reads_back t).2.2 _ _ harranged hspelled⟩

end Template

end Dialogue
