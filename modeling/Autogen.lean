import Autogen.Classification
import Autogen.Config.Coerce
import Autogen.Config.Decode
import Autogen.Config.Fault
import Autogen.Config.File
import Autogen.Config.Json
import Autogen.Config.Toml.Document
import Autogen.Config.Toml.Moment
import Autogen.Config.Toml.Scalar
import Autogen.Config.Toml.Table
import Autogen.Config.Value
import Autogen.Config.Yaml.Cursor
import Autogen.Config.Yaml.Draft
import Autogen.Config.Yaml.Excerpt
import Autogen.Config.Yaml.Node
import Autogen.Config.Yaml.Resolve
import Autogen.Config.Yaml.Scalar
import Autogen.Config.Yaml.Timestamp
import Autogen.Config.Yaml.Token
import Autogen.ConfigDiff
import Autogen.Dependencies
import Autogen.Descriptor.Basic
import Autogen.Descriptor.File
import Autogen.Diagnostics
import Autogen.Digest.Base32
import Autogen.Digest.Sha256
import Autogen.Environment
import Autogen.FileSystem.Basic
import Autogen.FileSystem.Canonical
import Autogen.FileSystem.Lookup
import Autogen.FileSystem.Name
import Autogen.FileSystem.Write
import Autogen.Graph.Basic
import Autogen.Graph.Store
import Autogen.Layout
import Autogen.Moment
import Autogen.Number.Arithmetic
import Autogen.Number.Double
import Autogen.Number.Shortest
import Autogen.Options
import Autogen.OrderedMap
import Autogen.OrderedSet
import Autogen.Path.Absolute
import Autogen.Path.Basic
import Autogen.Plan.Basic
import Autogen.Plan.Build
import Autogen.Plan.Emission
import Autogen.Plan.Entries
import Autogen.Policy
import Autogen.Project.Load
import Autogen.Project.Mapping
import Autogen.Settings
import Autogen.Source
import Autogen.Text.Blank
import Autogen.Text.Case
import Autogen.Text.Cased
import Autogen.Text.Digit
import Autogen.Text.Encoding
import Autogen.Text.Order
import Autogen.Text.Printable
import Autogen.Text.Quoted
import Autogen.Text.Split
import Autogen.Text.Surrogate
import Autogen.Tool
import Autogen.Version
import Autogen.Proofs.Graph.Links
import Autogen.Proofs.Graph.Merged
import Autogen.Proofs.Graph.Growth
import Autogen.Proofs.Plan.Effects
import Autogen.Proofs.Graph.Calls
import Autogen.Proofs.Graph.Remembered
import Autogen.Proofs.Descriptor.Roundtrip
import Autogen.Proofs.FileSystem.Growth
import Autogen.Proofs.FileSystem.Write
import Autogen.Proofs.Descriptor.File
import Autogen.Proofs.Plan.Entries
import Autogen.Proofs.Plan.Decode
import Autogen.Proofs.Path.Absolute
import Autogen.Proofs.Path.Text
import Autogen.Proofs.FileSystem.Spelling
import Autogen.Proofs.FileSystem.Walk
import Autogen.Proofs.FileSystem.Canonical
import Autogen.Proofs.Plan.Comparison
import Autogen.Proofs.Plan.Repetition
import Autogen.Proofs.Plan.Rerun
import Autogen.Proofs.Plan.Independence
import Autogen.Proofs.Plan.DryRun
import Autogen.Proofs.Graph.Linking
import Autogen.Proofs.Project.Loading
import Autogen.Proofs.Project.Linking
import Autogen.Proofs.Plan.Faults
import Autogen.Proofs.Plan.Order
import Autogen.Proofs.Graph.Names
import Autogen.Proofs.Descriptor.Declarations
import Autogen.Proofs.FileSystem.Linkless
import Autogen.Proofs.Plan.Outputs
import Autogen.Proofs.Project.Description
import Autogen.Proofs.Options.Merging
import Autogen.Proofs.Options.Repetition
import Autogen.Proofs.Descriptor.Lists
import Autogen.Proofs.Config.ListText
import Autogen.Proofs.Plan.Nested
import Autogen.Proofs.Firsts
import Autogen.Proofs.Classification.Listing
import Autogen.Proofs.Classification.Inputs
import Autogen.Proofs.Classification.Overlaps
import Autogen.Proofs.FileSystem.Readback
import Autogen.Proofs.Path.Collapse
import Autogen.Proofs.Layout
import Autogen.Proofs.Plan.Resources
import Autogen.Proofs.Relocation
import Autogen.Proofs.Dependencies.Origins
import Autogen.Proofs.Plan.Configurations
import Autogen.Proofs.Graph.Reordered
import Autogen.Proofs.Plan.Reordered
import Autogen.Proofs.Version
import Autogen.Proofs.Graph.Flattened
import Autogen.Proofs.Descriptor.Grammar
import Autogen.Proofs.Plan.FlatLists
import Autogen.Proofs.FileSystem.Frame
import Autogen.Proofs.Descriptor.Writing
import Autogen.Proofs.FileSystem.Resolution
import Autogen.Proofs.FileSystem.FixedPoint
