import StoryMachine.Main
import StoryMachine.Proofs.Integrity
import StoryMachine.Proofs.Isolation
import StoryMachine.Proofs.Representation
import StoryMachine.Proofs.Restart
import StoryMachine.Proofs.Resumption
import StoryMachine.Proofs.Status
import StoryMachine.Proofs.Placement
import StoryMachine.Proofs.Encoding
import StoryMachine.Proofs.Assembly
import StoryMachine.Proofs.Run
import StoryMachine.Proofs.Disassembly
import StoryMachine.Proofs.Lenience
import StoryMachine.Proofs.Provenance
import StoryMachine.Proofs.Lookup
import StoryMachine.Proofs.Buffers
import StoryMachine.Proofs.Keys
import StoryMachine.Proofs.Tokens
import StoryMachine.Proofs.Truncation
import StoryMachine.Proofs.Nesting
import StoryMachine.Proofs.Properties
import StoryMachine.Proofs.Access
import StoryMachine.Proofs.Branching
import StoryMachine.Proofs.Variables
import StoryMachine.Proofs.Calling
import StoryMachine.Proofs.Loading
import StoryMachine.Proofs.Lines
import StoryMachine.Proofs.Inline
