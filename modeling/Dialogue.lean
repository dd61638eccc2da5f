import Dialogue.Session.Shared
import Dialogue.Proofs.Session.Record
import Dialogue.Tokenizer.File
import Dialogue.Proofs.Reply.Reading
import Dialogue.Proofs.Session.Positions
import Dialogue.Proofs.Session.Turns
import Dialogue.Proofs.Session.Layout
import Dialogue.Proofs.Session.Replies
import Dialogue.Proofs.Session.Refusal
import Dialogue.Proofs.Session.Restart
import Dialogue.Proofs.Session.Stopping
import Dialogue.Proofs.Session.Progress
import Dialogue.Proofs.Session.Lifetime
import Dialogue.Proofs.Session.Ledger
import Dialogue.Proofs.Sampling.Candidates
import Dialogue.Proofs.Session.ValidTokens
import Dialogue.Proofs.Tokenizer.RoundTrip
import Dialogue.Proofs.Reply.Cutting
import Dialogue.Proofs.Reply.Buffer
import Dialogue.Proofs.Tokenizer.Barrier
import Dialogue.Proofs.Tokenizer.OctetTokens
import Dialogue.Proofs.Binary.NotNumbers
import Dialogue.Proofs.Sampling.Ranges
import Dialogue.Proofs.Sampling.Tiers
import Dialogue.Proofs.Sampling.Window
import Dialogue.Proofs.Sampling.Descending
import Dialogue.Proofs.Sampling.Nucleus
import Dialogue.Proofs.Sampling.Greedy
import Dialogue.Proofs.Session.Repetition
import Dialogue.Session.Packing
import Dialogue.Proofs.Image.Planes
import Dialogue.Tensor.Raw
import Dialogue.Proofs.Tensor.Making
import Dialogue.Proofs.Binary.Widening
import Dialogue.Proofs.Image.Normal
import Dialogue.Proofs.Sampling.Replaying
import Dialogue.Proofs.Session.Configured
import Dialogue.Proofs.Backend.Entries
import Dialogue.Proofs.Template.Arrangement
