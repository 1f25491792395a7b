import JvmDiff.Access
import JvmDiff.AnnotationUse
import JvmDiff.Assembly.Basic
import JvmDiff.Assembly.Error
import JvmDiff.Change.Basic
import JvmDiff.Change.Message
import JvmDiff.Change.Topic
import JvmDiff.Class
import JvmDiff.ClassFile.Attribute
import JvmDiff.ClassFile.Bytes
import JvmDiff.ClassFile.ConstantPool
import JvmDiff.ClassFile.Definition
import JvmDiff.ClassFile.Error
import JvmDiff.ClassFile.ModifiedUtf8
import JvmDiff.ClassFile.Read
import JvmDiff.ClassFile.Write
import JvmDiff.ClassFilter
import JvmDiff.CommandLine.Options
import JvmDiff.CommandLine.Run
import JvmDiff.Comparison.Basic
import JvmDiff.Comparison.Classes
import JvmDiff.Comparison.Snapshots
import JvmDiff.Digest
import JvmDiff.DirEntry
import JvmDiff.ElementValue
import JvmDiff.Entity
import JvmDiff.Field
import JvmDiff.FileTree.Basic
import JvmDiff.FileTree.Creation
import JvmDiff.FloatingPoint.Basic
import JvmDiff.FloatingPoint.Notation
import JvmDiff.FloatingPoint.Rounding
import JvmDiff.FloatingPoint.Shortest
import JvmDiff.InnerClass
import JvmDiff.Json.Basic
import JvmDiff.Json.Printer
import JvmDiff.Json.Reader
import JvmDiff.Json.Token
import JvmDiff.Log
import JvmDiff.Main
import JvmDiff.Matching
import JvmDiff.Member
import JvmDiff.Package
import JvmDiff.Problem
import JvmDiff.Proofs.Assembly.Acceptance
import JvmDiff.Proofs.Assembly.Handles
import JvmDiff.Proofs.Assembly.Names
import JvmDiff.Proofs.Assembly.Nesting
import JvmDiff.Proofs.Assembly.Overloads
import JvmDiff.Proofs.Assembly.Rejection
import JvmDiff.Proofs.Assembly.Transcript
import JvmDiff.Proofs.Change.Filling
import JvmDiff.Proofs.Change.Template
import JvmDiff.Proofs.Class.Blueprint
import JvmDiff.Proofs.ClassFile.Attributes
import JvmDiff.Proofs.ClassFile.Elements
import JvmDiff.Proofs.ClassFile.Extent
import JvmDiff.Proofs.ClassFile.Gathering
import JvmDiff.Proofs.ClassFile.Interning
import JvmDiff.Proofs.ClassFile.Layout
import JvmDiff.Proofs.ClassFile.Listing
import JvmDiff.Proofs.ClassFile.ModifiedUtf8
import JvmDiff.Proofs.ClassFile.Names
import JvmDiff.Proofs.ClassFile.Outcome
import JvmDiff.Proofs.ClassFile.PassedOver
import JvmDiff.Proofs.ClassFile.Pool
import JvmDiff.Proofs.ClassFile.Protocol
import JvmDiff.Proofs.ClassFile.Reading
import JvmDiff.Proofs.ClassFile.RoundTrip
import JvmDiff.Proofs.ClassFile.Slots
import JvmDiff.Proofs.ClassFile.Telling
import JvmDiff.Proofs.ClassFile.TextConstants
import JvmDiff.Proofs.ClassFile.TextFaults
import JvmDiff.Proofs.Comparison.Completeness
import JvmDiff.Proofs.Comparison.Conformance
import JvmDiff.Proofs.Comparison.Failures
import JvmDiff.Proofs.Comparison.KeyByKey
import JvmDiff.Proofs.Comparison.Mirror
import JvmDiff.Proofs.Comparison.Oversights
import JvmDiff.Proofs.Comparison.PackageClasses
import JvmDiff.Proofs.Comparison.Reports
import JvmDiff.Proofs.Comparison.Silence
import JvmDiff.Proofs.Comparison.Vocabulary
import JvmDiff.Proofs.Content.Constants
import JvmDiff.Proofs.Content.Delimiters
import JvmDiff.Proofs.Content.Drafts
import JvmDiff.Proofs.Content.Fields
import JvmDiff.Proofs.Content.Forgery
import JvmDiff.Proofs.Content.Members
import JvmDiff.Proofs.Content.Methods
import JvmDiff.Proofs.Content.Numbers
import JvmDiff.Proofs.Content.Outline
import JvmDiff.Proofs.Content.Reading
import JvmDiff.Proofs.Content.Rearrangement
import JvmDiff.Proofs.Content.Values
import JvmDiff.Proofs.Entity.Order
import JvmDiff.Proofs.Entity.Stability
import JvmDiff.Proofs.FloatingPoint.Intervals
import JvmDiff.Proofs.FloatingPoint.Notation
import JvmDiff.Proofs.FloatingPoint.Shortest
import JvmDiff.Proofs.Json.RoundTrip
import JvmDiff.Proofs.Json.Tokens
import JvmDiff.Proofs.Matching.Conservation
import JvmDiff.Proofs.Matching.Counting
import JvmDiff.Proofs.Matching.Search
import JvmDiff.Proofs.Matching.Symmetry
import JvmDiff.Proofs.Report.Lines
import JvmDiff.Proofs.Report.RoundTrip
import JvmDiff.Proofs.Signature.Acceptance
import JvmDiff.Proofs.Signature.Agreement
import JvmDiff.Proofs.Signature.Brackets
import JvmDiff.Proofs.Signature.Course
import JvmDiff.Proofs.Signature.DeclarationCourse
import JvmDiff.Proofs.Signature.DeclarationReadings
import JvmDiff.Proofs.Signature.Declarations
import JvmDiff.Proofs.Signature.DecoderCourse
import JvmDiff.Proofs.Signature.Decoding
import JvmDiff.Proofs.Signature.Erasure
import JvmDiff.Proofs.Signature.Grammar
import JvmDiff.Proofs.Signature.Places
import JvmDiff.Proofs.Signature.Progress
import JvmDiff.Proofs.Signature.Readings
import JvmDiff.Proofs.Signature.Rendered
import JvmDiff.Proofs.Signature.Scanning
import JvmDiff.Proofs.Signature.Walk
import JvmDiff.Proofs.Signature.Written
import JvmDiff.Proofs.Snapshot.Accounts
import JvmDiff.Proofs.Snapshot.Admission
import JvmDiff.Proofs.Snapshot.ClassFiles
import JvmDiff.Proofs.Snapshot.Fates
import JvmDiff.Proofs.Snapshot.Index
import JvmDiff.Proofs.Snapshot.ListingOrder
import JvmDiff.Proofs.Snapshot.LoadOrder
import JvmDiff.Proofs.Snapshot.Sources
import JvmDiff.Proofs.Text.Halves
import JvmDiff.Proofs.Text.Lines
import JvmDiff.Proofs.Text.Quoted
import JvmDiff.Report.Basic
import JvmDiff.Report.Data
import JvmDiff.Report.Text
import JvmDiff.Settings.Basic
import JvmDiff.Settings.File
import JvmDiff.Signature.Descriptor
import JvmDiff.Signature.Malformed
import JvmDiff.Signature.Rendering
import JvmDiff.Signature.Scan
import JvmDiff.Snapshot.Basic
import JvmDiff.Snapshot.Loading
import JvmDiff.Text.Blank
import JvmDiff.Text.Order
import JvmDiff.Text.Quoted
import JvmDiff.Text.Unprintable
import JvmDiff.Text.Utf16
import JvmDiff.Toml.Item
import JvmDiff.Toml.Reader
import JvmDiff.Toml.Scalar
import JvmDiff.Toml.Text
