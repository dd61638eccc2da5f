import Dialogue.Config
import Dialogue.Proofs.Sampling.Validity

namespace Dialogue

namespace Config

structure Valid (c : Config) : Prop where
  contextWindow : 1 ≤ c.contextWindow
  maxGenLength : 1 ≤ c.maxGenLength
  sampling : c.sampling.Valid

/-- A configuration has all that is in range in another. -/
structure Retains (c d : Config) : Prop where
  contextWindow : 1 ≤ c.contextWindow → d.contextWindow = c.contextWindow
  maxGenLength : 1 ≤ c.maxGenLength → d.maxGenLength = c.maxGenLength
  sampling : c.sampling.Retains d.sampling
  template : d.template = c.template

def parsed? : Option File → Option Config
  | none => some {}
  | some file => file.text?.bind ofJson

theorem clamps_contextWindow :
    Clamps (1 ≤ ·) fun n => if n = 0 then ({} : Config).contextWindow else n :=
  .replaceZero (by decide)

theorem clamps_maxGenLength :
    Clamps (1 ≤ ·) fun n => if n = 0 then ({} : Config).maxGenLength else n :=
  .replaceZero (by decide)

theorem valid_validate (c : Config) : c.validate.Valid where
  contextWindow := clamps_contextWindow.inRange _
  maxGenLength := clamps_maxGenLength.inRange _
  sampling := c.sampling.valid_validate

theorem retains_validate (c : Config) : c.Retains c.validate where
  contextWindow := clamps_contextWindow.keeps _
  maxGenLength := clamps_maxGenLength.keeps _
  sampling := c.sampling.retains_validate
  template := rfl

theorem Valid.eq_of_retains {c d : Config} (hc : c.Valid) (h : c.Retains d) : d = c := by
  obtain ⟨_, _, _, _⟩ := c
  obtain ⟨_, _, _, _⟩ := d
  rw [mk.injEq]
  exact ⟨h.contextWindow hc.contextWindow, h.maxGenLength hc.maxGenLength,
    hc.sampling.eq_of_retains h.sampling, h.template⟩

theorem clamps_validate : Clamps Valid validate where
  inRange := valid_validate
  keeps c hc := hc.eq_of_retains c.retains_validate

theorem validate_default : ({} : Config).validate = {} := by decide +kernel

theorem read_of_text {file : File} {text : String} (h : file.text? = some text) :
    File.read (some file) = .ok text := by
  rw [File.read, Option.bind_some, h]

theorem load_of_parsed {file : Option File} {parsed : Config} (h : parsed? file = some parsed) :
    load file = .ok parsed.validate := by
  cases file with
  | none =>
      -- The defaults are returned as they are; to validate them would change nothing.
      cases h
      rw [validate_default]
      rfl
  | some file =>
      obtain ⟨text, htext, hparsed⟩ := Option.bind_eq_some_iff.mp h
      simp only [load, read_of_text htext, bind, Except.bind, hparsed]

example :
    (load (some (.ofText "\x7b\"temperature\":-1,\"top_p\":0,\"penalty_window\":0\x7d"))).toOption =
      some { sampling := { temperature := 0, topP := 1, penaltyWindow := 1 } } := by
  decide +kernel

theorem load_of_refused {file : Option File} (h : parsed? file = none) :
    load file = .error .io ∨ load file = .error .config := by
  cases file with
  | none => cases h
  | some file =>
      rw [parsed?, Option.bind_eq_none_iff] at h
      cases htext : file.text? with
      | none =>
          left
          simp only [load, File.read, Option.bind_some, htext, bind, Except.bind]
      | some text =>
          right
          simp only [load, read_of_text htext, bind, Except.bind, h text htext]

theorem valid_of_load {file : Option File} {config : Config} (h : load file = .ok config) :
    config.Valid := by
  cases hparsed : parsed? file with
  | none => rcases load_of_refused hparsed with hio | hconfig <;> simp_all
  | some parsed =>
      rw [load_of_parsed hparsed] at h
      cases h
      exact parsed.valid_validate

/-- The limits fit in 64 bits. -/
structure InWord (c : Config) : Prop where
  contextWindow : c.contextWindow < UInt64.size
  maxGenLength : c.maxGenLength < UInt64.size

theorem lt_of_getD {fields : Json.Fields} {name : String} {missing n : Nat}
    (h : fields.getD name Json.Value.size? missing = some n) (hmissing : missing < UInt64.size) :
    n < UInt64.size := by
  rw [Json.Fields.getD] at h
  cases hvalue : fields.get? name with
  | none =>
      rw [hvalue] at h
      cases h
      exact hmissing
  | some value =>
      rw [hvalue] at h
      simp only [Json.Value.size?, Json.Value.natural?] at h
      split at h
      · split at h
        · rename_i hbound
          cases h
          exact hbound
        · cases h
      · cases h

theorem inWord_ofFields {fields : Json.Fields} {c : Config} (h : ofFields fields = some c) :
    c.InWord := by
  rw [ofFields] at h
  split at h
  · cases h
  · simp only [bind, Option.bind_eq_some_iff] at h
    obtain ⟨window, hwindow, length, hlength, sampling, -, template, -, hc⟩ := h
    cases hc
    exact ⟨lt_of_getD hwindow (by decide), lt_of_getD hlength (by decide)⟩

theorem inWord_ofJson {text : String} {c : Config} (h : ofJson text = some c) : c.InWord := by
  simp only [ofJson, bind, Option.bind_eq_some_iff] at h
  obtain ⟨value, -, hvalue⟩ := h
  cases value with
  | object members =>
      obtain ⟨fields, -, hfields⟩ := Option.bind_eq_some_iff.mp hvalue
      exact inWord_ofFields hfields
  | _ => cases hvalue

theorem InWord.validate {c : Config} (h : c.InWord) : c.validate.InWord where
  contextWindow := by
    change (if c.contextWindow = 0 then ({} : Config).contextWindow else c.contextWindow) < _
    split
    · decide
    · exact h.contextWindow
  maxGenLength := by
    change (if c.maxGenLength = 0 then ({} : Config).maxGenLength else c.maxGenLength) < _
    split
    · decide
    · exact h.maxGenLength

theorem inWord_of_load {file : Option File} {config : Config} (h : load file = .ok config) :
    config.InWord := by
  cases hparsed : parsed? file with
  | none => rcases load_of_refused hparsed with hio | hconfig <;> simp_all
  | some parsed =>
      rw [load_of_parsed hparsed] at h
      cases h
      apply InWord.validate
      cases file with
      | none =>
          cases hparsed
          exact ⟨by decide, by decide⟩
      | some file =>
          obtain ⟨text, -, hread⟩ := Option.bind_eq_some_iff.mp hparsed
          exact inWord_ofJson hread

end Config

end Dialogue
