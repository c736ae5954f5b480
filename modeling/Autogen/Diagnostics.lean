/-!
# Diagnostics

What a plan reports without giving up.

## Main definitions

* `Diagnostic` — a warning or an error about a target, and `Diagnostic.text` for its text.
* `Diagnostics` — the diagnostics of one target in the order in which they were recorded.
* `Diagnostics.Continues`, `Diagnostics.HasError` — what was recorded since, and what is among them.
* `Diagnostics.log` — the log lines for them.
-/

namespace Autogen

/-- How grave a diagnostic is. -/
inductive Severity where
  | warning
  | error
deriving DecidableEq, Repr

namespace Severity

/-- The name of a severity. -/
def text : Severity → String
  | warning => "warning"
  | error => "error"

/-- The name of the log level of a severity. -/
def level : Severity → String
  | warning => "WARNING"
  | error => "ERROR"

end Severity

/-- The log line of a message at a level. -/
def logLine (level message : String) : String :=
  "[" ++ level ++ "] " ++ message ++ "\n"

/-- A message about a target, if it is about one. -/
structure Diagnostic where
  severity : Severity
  message : String
  target : Option String
deriving DecidableEq, Repr

namespace Diagnostic

/-- The text of a diagnostic, with the target in front. -/
def text (d : Diagnostic) : String :=
  let mark := match d.target with
    | some name => if name = "" then "" else "[" ++ name ++ "] "
    | none => ""
  mark ++ d.severity.text ++ ": " ++ d.message

/-- The log line of a diagnostic. -/
def logged (d : Diagnostic) : String :=
  logLine d.severity.level d.text

end Diagnostic

/-- The diagnostics about one target in the order in which they were recorded. -/
structure Diagnostics where
  target : Option String
  items : List Diagnostic := []
deriving DecidableEq

namespace Diagnostics

/-- Records a message of the given severity. -/
def record (ds : Diagnostics) (severity : Severity) (message : String) : Diagnostics :=
  { ds with items := ds.items ++ [⟨severity, message, ds.target⟩] }

/-- Records a warning. -/
def warning (ds : Diagnostics) (message : String) : Diagnostics :=
  ds.record .warning message

/-- Records an error. -/
def error (ds : Diagnostics) (message : String) : Diagnostics :=
  ds.record .error message

/-- Records warnings in turn. -/
def warnings (ds : Diagnostics) (messages : List String) : Diagnostics :=
  messages.foldl warning ds

/-- Records errors in turn. -/
def errors (ds : Diagnostics) (messages : List String) : Diagnostics :=
  messages.foldl error ds

/-- The diagnostics of one severity. -/
def ofSeverity (ds : Diagnostics) (severity : Severity) : List Diagnostic :=
  ds.items.filter (·.severity = severity)

/-- Whether an error was recorded. -/
def hasErrors (ds : Diagnostics) : Bool :=
  ds.items.any (·.severity = .error)

/-- Diagnostics of one target of which the second ones are the first ones and what was recorded
since. -/
structure Continues (ds ds' : Diagnostics) : Prop where
  target : ds'.target = ds.target
  items : ds.items <+: ds'.items

/-- An error with the given message is among the diagnostics. -/
def HasError (ds : Diagnostics) (message : String) : Prop :=
  ⟨.error, message, ds.target⟩ ∈ ds.items

/-- The log lines of the diagnostics. -/
def log (ds : Diagnostics) : String :=
  String.join (ds.items.map (·.logged))

@[simp] theorem items_errors (ds : Diagnostics) (messages : List String) :
    (ds.errors messages).items = ds.items ++ messages.map (⟨.error, ·, ds.target⟩) := by
  unfold errors
  induction messages generalizing ds with
  | nil => simp
  | cons m rest ih => simp [ih, error, record]

namespace Continues

theorem refl (ds : Diagnostics) : ds.Continues ds :=
  ⟨rfl, List.prefix_rfl⟩

theorem trans {ds ds' ds'' : Diagnostics} (h : ds.Continues ds') (h' : ds'.Continues ds'') :
    ds.Continues ds'' :=
  ⟨h'.target.trans h.target, h.items.trans h'.items⟩

theorem record (ds : Diagnostics) (severity : Severity) (message : String) :
    ds.Continues (ds.record severity message) :=
  ⟨rfl, List.prefix_append _ _⟩

theorem warnings (ds : Diagnostics) (messages : List String) :
    ds.Continues (ds.warnings messages) := by
  unfold Diagnostics.warnings
  induction messages generalizing ds with
  | nil => exact refl ds
  | cons message rest ih => exact (record ds .warning message).trans (ih _)

theorem errors (ds : Diagnostics) (messages : List String) : ds.Continues (ds.errors messages) := by
  unfold Diagnostics.errors
  induction messages generalizing ds with
  | nil => exact refl ds
  | cons message rest ih => exact (record ds .error message).trans (ih _)

end Continues

theorem HasError.continues {ds ds' : Diagnostics} {message : String} (h : ds.HasError message)
    (hfirst : ds.Continues ds') : ds'.HasError message := by
  rw [HasError, hfirst.target]
  exact hfirst.items.subset h

theorem hasError_error (ds : Diagnostics) (message : String) :
    (ds.error message).HasError message :=
  List.mem_append_right _ (List.mem_singleton_self _)

theorem hasError_errors {ds : Diagnostics} {messages : List String} {message : String}
    (h : message ∈ messages) : (ds.errors messages).HasError message := by
  rw [HasError, (Continues.errors ds messages).target, items_errors]
  exact List.mem_append_right _ (List.mem_map.mpr ⟨message, h, rfl⟩)

end Diagnostics

end Autogen
