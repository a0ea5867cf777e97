import PropertyGraph.Main
import PropertyGraph.Remote.Client
import PropertyGraph.Remote.Server
import PropertyGraph.Session
import PropertyGraph.Proofs.Evaluation
import PropertyGraph.Proofs.Cardinality
import PropertyGraph.Proofs.Scoping
import PropertyGraph.Proofs.Kinds
import PropertyGraph.Proofs.Building
import PropertyGraph.Proofs.Evolution
import PropertyGraph.Proofs.Descent
import PropertyGraph.Proofs.Numbering
import PropertyGraph.Proofs.Integrity
import PropertyGraph.Proofs.Looking
import PropertyGraph.Proofs.Turns
import PropertyGraph.Proofs.Failing
import PropertyGraph.Proofs.Arrangement
import PropertyGraph.Proofs.Printing
import PropertyGraph.Proofs.RoundTrip
import PropertyGraph.Proofs.Messages
import PropertyGraph.Proofs.Exchange
import PropertyGraph.Proofs.SelfContained
import PropertyGraph.Proofs.Histories
import PropertyGraph.Proofs.Isolation
import PropertyGraph.Proofs.Framing
import PropertyGraph.Proofs.Reporting
import PropertyGraph.Proofs.Lifecycle
import PropertyGraph.Proofs.Handles
import PropertyGraph.Proofs.Identity
import PropertyGraph.Proofs.ReadOnly
import PropertyGraph.Proofs.Selecting
import PropertyGraph.Proofs.Strangers
import PropertyGraph.Proofs.Registration
import PropertyGraph.Proofs.Typing
import PropertyGraph.Proofs.Decoding
import PropertyGraph.Proofs.Rounding
import PropertyGraph.Proofs.Comparing
import PropertyGraph.Proofs.Rendering
import PropertyGraph.Proofs.Fields
import PropertyGraph.Proofs.Payloads
import PropertyGraph.Proofs.Completion
import PropertyGraph.Proofs.Indexes
import PropertyGraph.Proofs.Registry
import PropertyGraph.Proofs.Encoding
import PropertyGraph.Proofs.People
import PropertyGraph.Proofs.Creation
import PropertyGraph.Proofs.Overwriting
import PropertyGraph.Proofs.Agreement
import PropertyGraph.Proofs.Predicates
import PropertyGraph.Proofs.Renaming
import PropertyGraph.Proofs.Transparency
import PropertyGraph.Proofs.Dropping
import PropertyGraph.Proofs.Connecting
import PropertyGraph.Proofs.Strictness
import PropertyGraph.Proofs.Walking
import PropertyGraph.Proofs.Admission
import PropertyGraph.Proofs.Sequences
import PropertyGraph.Proofs.Memory
import PropertyGraph.Proofs.Sharing
import PropertyGraph.Proofs.Hiding
import PropertyGraph.Proofs.Renumbering
