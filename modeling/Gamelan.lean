import Gamelan.Files.Tree
import Gamelan.Log
import Gamelan.Main
import Gamelan.Proofs.Performance.LastPlayback
import Gamelan.Proofs.Performance.LateStroke
import Gamelan.Proofs.Performance.Resumption
import Gamelan.Proofs.Performance.Consistency
import Gamelan.Proofs.Sound.Frames
import Gamelan.Proofs.Sound.Sending
import Gamelan.Proofs.Performance.Outlook
import Gamelan.Proofs.Sound.Pending
import Gamelan.Proofs.Sound.Fading
import Gamelan.Proofs.Session.Operations
import Gamelan.Proofs.Session.Buffering
import Gamelan.Proofs.Sound.Cut
import Gamelan.Proofs.Session.FallingSilent
import Gamelan.Proofs.Session.Awaiting
import Gamelan.Proofs.Session.TakingBack
import Gamelan.Proofs.Notation.Canonical
import Gamelan.Proofs.Notation.Spelling
import Gamelan.Proofs.Notation.LineByLine
import Gamelan.Proofs.Notation.WellFormed
import Gamelan.Proofs.Performance.OnTime
import Gamelan.Proofs.Sound.Firing
import Gamelan.Proofs.Session.Punctuality
import Gamelan.Proofs.Notation.Derivation
import Gamelan.Proofs.Performance.Muting
import Gamelan.Proofs.Performance.Toggling
import Gamelan.Proofs.Performance.KnownCalls
import Gamelan.Proofs.Performance.Replay
import Gamelan.Proofs.Sound.Stock
import Gamelan.Proofs.Performance.Loading
import Gamelan.Proofs.Performance.Slots
import Gamelan.Proofs.Notation.LongestMatch
import Gamelan.Proofs.Timeline.Layout
import Gamelan.Proofs.Performance.Granularity
import Gamelan.Proofs.Performance.Swapping
import Gamelan.Proofs.Sound.Callbacks
import Gamelan.Proofs.Sound.Envelope
import Gamelan.Proofs.Ensemble.Validation
import Gamelan.Proofs.Notation.Rows
import Gamelan.Proofs.Notation.Coverage
import Gamelan.Proofs.Timeline.Times
import Gamelan.Proofs.Notation.Volume
import Gamelan.Proofs.Timeline.Positions
import Gamelan.Proofs.Sound.Interpolation
import Gamelan.Proofs.Sound.Sharing
import Gamelan.Proofs.Performance.OwnSymbol
import Gamelan.Proofs.Notation.LineEndings
import Gamelan.Proofs.Performance.PollLength
import Gamelan.Proofs.Notation.Progress
