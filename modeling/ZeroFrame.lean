import ZeroFrame.Codeword.Encode
import ZeroFrame.Command.Folder
import ZeroFrame.Link.Segment
import ZeroFrame.Link.Session
import ZeroFrame.Main
import ZeroFrame.Table.Any
import ZeroFrame.Proofs.Bytes.Numeral
import ZeroFrame.Proofs.Codeword.Canonical
import ZeroFrame.Proofs.Codeword.Cutting
import ZeroFrame.Proofs.Codeword.Flags
import ZeroFrame.Proofs.Codeword.Grammar
import ZeroFrame.Proofs.Codeword.Joining
import ZeroFrame.Proofs.Codeword.Separators
import ZeroFrame.Proofs.Codeword.Settling
import ZeroFrame.Proofs.Codeword.Sizes
import ZeroFrame.Proofs.Codeword.Writing
import ZeroFrame.Proofs.Command.Listing
import ZeroFrame.Proofs.Layout.Packing
import ZeroFrame.Proofs.Layout.Parsing
import ZeroFrame.Proofs.Layout.Refusal
import ZeroFrame.Proofs.Layout.Strict
import ZeroFrame.Proofs.Layout.Unpacking
import ZeroFrame.Proofs.Link.Agreement
import ZeroFrame.Proofs.Link.Calls
import ZeroFrame.Proofs.Link.Closing
import ZeroFrame.Proofs.Link.Dismissal
import ZeroFrame.Proofs.Link.Draining
import ZeroFrame.Proofs.Link.History
import ZeroFrame.Proofs.Link.Intake
import ZeroFrame.Proofs.Link.Iteration
import ZeroFrame.Proofs.Link.Nesting
import ZeroFrame.Proofs.Link.Placing
import ZeroFrame.Proofs.Link.Queue
import ZeroFrame.Proofs.Link.Resynchronization
import ZeroFrame.Proofs.Link.Retention
import ZeroFrame.Proofs.Link.Separation
import ZeroFrame.Proofs.Link.Stream
import ZeroFrame.Proofs.Link.Supplying
import ZeroFrame.Proofs.Link.Taking
import ZeroFrame.Proofs.Link.Tracking
import ZeroFrame.Proofs.Link.Transport
import ZeroFrame.Proofs.Link.Trimming
import ZeroFrame.Proofs.Message.Conversion
import ZeroFrame.Proofs.Message.Demand
import ZeroFrame.Proofs.Message.Endings
import ZeroFrame.Proofs.Message.Filling
import ZeroFrame.Proofs.Message.Inversion
import ZeroFrame.Proofs.Message.Registration
import ZeroFrame.Proofs.Message.Validation
