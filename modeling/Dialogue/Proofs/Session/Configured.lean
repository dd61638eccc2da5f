import Dialogue.Proofs.Sampling.Ranges
import Dialogue.Proofs.Session.Origin

namespace Dialogue

variable {β : Type} [Backend β]

theorem Model.Origin.valid {registry : Registry (Loader β)} {name : String}
    {directory : ModelDirectory} {calls : List Call} {m : Model β}
    (h : m.Origin registry name directory calls) :
    Config.load directory.configFile = .ok m.config ∧ m.config.Valid ∧ m.chain.WellBuilt := by
  obtain ⟨found, configured, ran, fits, named, tokenizer, backend, chain⟩ := h
  have hvalid := Config.valid_of_load configured
  exact ⟨configured, hvalid, chain.wellBuilt hvalid.sampling⟩

end Dialogue
