import Relabel.Bytes
import Relabel.ClassFile.Annotation
import Relabel.ClassFile.Attribute
import Relabel.ClassFile.Basic
import Relabel.ClassFile.Bytecode
import Relabel.ClassFile.Constant
import Relabel.ClassFile.Fault
import Relabel.ClassFile.Format
import Relabel.ClassFile.Pool
import Relabel.Descriptor
import Relabel.Digest.NameUuid
import Relabel.Digest.Sha1
import Relabel.Goal
import Relabel.Goal.Json
import Relabel.Json.Number
import Relabel.Json.Printer
import Relabel.Json.Shape
import Relabel.Json.Skip
import Relabel.Json.Token
import Relabel.Lookup.Instruction
import Relabel.Lookup.Process
import Relabel.Lookup.Resolve
import Relabel.Mapping.CompactRecord
import Relabel.Mapping.DebugRecord
import Relabel.Mapping.Fault
import Relabel.Mapping.Lines
import Relabel.Mapping.Scan
import Relabel.Mapping.Tables
import Relabel.Names
import Relabel.Pass.All
import Relabel.Pass.Basic
import Relabel.Pass.Metadata
import Relabel.Pass.Reference
import Relabel.Pass.Strings
import Relabel.Project.Action
import Relabel.Project.Batch
import Relabel.Project.Cache
import Relabel.Project.FileTree
import Relabel.Project.Options
import Relabel.Project.Path
import Relabel.Proofs.ClassFile.AnnotationLayout
import Relabel.Proofs.ClassFile.AttributeLayout
import Relabel.Proofs.ClassFile.Bytecode
import Relabel.Proofs.ClassFile.CutInput
import Relabel.Proofs.ClassFile.Editing
import Relabel.Proofs.ClassFile.Evolving
import Relabel.Proofs.ClassFile.Layout
import Relabel.Proofs.ClassFile.PoolEdits
import Relabel.Proofs.ClassFile.PoolLayout
import Relabel.Proofs.ClassFile.PoolRuns
import Relabel.Proofs.ClassFile.PoolTexts
import Relabel.Proofs.ClassFile.RoundTrip
import Relabel.Proofs.ClassFile.Stepping
import Relabel.Proofs.ClassFile.WritingBack
import Relabel.Proofs.Descriptors
import Relabel.Proofs.Json.RoundTrip
import Relabel.Proofs.Lookup.ByteScan
import Relabel.Proofs.Lookup.Finding
import Relabel.Proofs.Lookup.Grammar
import Relabel.Proofs.Lookup.Identity
import Relabel.Proofs.Lookup.Keys
import Relabel.Proofs.Lookup.Owners
import Relabel.Proofs.Lookup.Scan
import Relabel.Proofs.Lookup.Settling
import Relabel.Proofs.Mapping.Faults
import Relabel.Proofs.Mapping.Joining
import Relabel.Proofs.Mapping.LineNumbers
import Relabel.Proofs.Mapping.Lines
import Relabel.Proofs.Mapping.Members
import Relabel.Proofs.Mapping.Overloads
import Relabel.Proofs.Mapping.Records
import Relabel.Proofs.Mapping.Scanning
import Relabel.Proofs.Mapping.Spelling
import Relabel.Proofs.MethodDescriptors
import Relabel.Proofs.Names
import Relabel.Proofs.Pass.All
import Relabel.Proofs.Pass.BootstrapArguments
import Relabel.Proofs.Pass.Detaching
import Relabel.Proofs.Pass.Frame
import Relabel.Proofs.Pass.Framing
import Relabel.Proofs.Pass.Metadata
import Relabel.Proofs.Pass.MetadataValues
import Relabel.Proofs.Pass.Outcomes
import Relabel.Proofs.Pass.Reference
import Relabel.Proofs.Pass.ReferenceTexts
import Relabel.Proofs.Pass.ReferenceValues
import Relabel.Proofs.Pass.ReferencedMembers
import Relabel.Proofs.Pass.RenamedMembers
import Relabel.Proofs.Pass.Replacing
import Relabel.Proofs.Pass.Reserves
import Relabel.Proofs.Pass.Rewriting
import Relabel.Proofs.Pass.Settled
import Relabel.Proofs.Pass.Signatures
import Relabel.Proofs.Pass.StringSites
import Relabel.Proofs.Pass.StringValues
import Relabel.Proofs.Pass.Strings
import Relabel.Proofs.Pass.Unchanged
import Relabel.Proofs.Project.Caching
import Relabel.Proofs.Project.FileTree
import Relabel.Proofs.Project.Interrupted
import Relabel.Proofs.Project.Isolation
import Relabel.Proofs.Project.Places
import Relabel.Proofs.Project.Reverting
import Relabel.Proofs.Project.Visits
import Relabel.Proofs.Project.Walking
import Relabel.Proofs.Project.Writing
import Relabel.Proofs.ReadableTypes
import Relabel.Proofs.SymbolTable.Nesting
import Relabel.Proofs.SymbolTable.RoundTrip
import Relabel.Proofs.Text.ModifiedUtf8
import Relabel.Proofs.Text.Splitting
import Relabel.Proofs.Text.Utf8
import Relabel.SymbolTable.Basic
import Relabel.SymbolTable.Json
import Relabel.SymbolTable.Merge
import Relabel.Text.Blank
import Relabel.Text.Extending
import Relabel.Text.FlipPoints
import Relabel.Text.LetterCase
import Relabel.Text.ModifiedUtf8
import Relabel.Text.Printable
import Relabel.Text.Quoted
import Relabel.Text.Split
import Relabel.Text.Utf8
