import Autogen.Config.Coerce

/-!
# Generated file policy

What happens to generated sources that could be scanned by moc or uic.

## Main definitions

* `GeneratedFilePolicy` — the policies, and `GeneratedFilePolicy.ofValue` to read one.
* `PolicyDecision` — what a policy says about a generated source.
-/

namespace Autogen

/-- The policies for generated sources: `old` ignores them silently, `warn` ignores them and says
so, `new` and `required` process them like any other source. -/
inductive GeneratedFilePolicy where
  | old
  | warn
  | new
  | required
deriving DecidableEq, Repr, Inhabited

/-- What a policy says about a generated source. -/
inductive PolicyDecision where
  | accept
  | reject
  | rejectWithWarning
deriving DecidableEq, Repr

namespace PolicyDecision

/-- The name of a decision. -/
def text : PolicyDecision → String
  | accept => "accept"
  | reject => "reject"
  | rejectWithWarning => "reject-with-warning"

/-- Whether the source is processed. -/
def accepted (d : PolicyDecision) : Bool :=
  d = accept

end PolicyDecision

namespace GeneratedFilePolicy

/-- The name of a policy. -/
def text : GeneratedFilePolicy → String
  | old => "OLD"
  | warn => "WARN"
  | new => "NEW"
  | required => "REQUIRED"

/-- All policies. -/
def all : List GeneratedFilePolicy :=
  [old, warn, new, required]

/-- The decision of a policy. -/
def decision : GeneratedFilePolicy → PolicyDecision
  | old => .reject
  | warn => .rejectWithWarning
  | new => .accept
  | required => .accept

/-- The policy that a value names, in letters of either case and with white space around it. -/
def ofValue (value : Value) : Except ConfigFault GeneratedFilePolicy := do
  let name ← value.plainText
  match all.find? fun p => p.text = Text.upperKeyword (Text.strip name) with
  | some policy => return policy
  | none => throw (.unknownPolicy name)

end GeneratedFilePolicy

end Autogen
