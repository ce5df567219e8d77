import TagScope.Value.Equality
/-!
# Options

A policy from the options that a user wrote and the source type of the unit.

* `Policy.ofOptions`: the options are nothing or a dictionary whose only key may be `optionName`,
  with a truth value; the source type is one of two words. **The first violated check is
  reported**, in the order in which the function makes them.
-/

namespace TagScope

/-- The one option there is. -/
def optionName : String := "allowGlobals"

namespace Policy

/-- The entries of the options. -/
def entriesOf : Datum → Except Failure (Dictionary Datum)
  | .null => .ok .empty
  | .mapping entries => .ok entries
  | d => .error (.optionsNotMapping (Value.datumShape d))

/-- The keys that are no option, each in quotes, in the order of the quoted texts. -/
def unknownNames (entries : Dictionary Datum) : List String :=
  (OrderedSet.ofList ((entries.keys.filter (· != optionName)).map quoted)).toList

/-- Whether the options allow global names; they do not unless told to. -/
def allowGlobalsOf (entries : Dictionary Datum) : Except Failure Bool :=
  match entries.get? optionName with
  | none => .ok false
  | some (.bool b) => .ok b
  | some d => .error (.optionNotBool d.shown)

/-- The source type that a value stands for. -/
def sourceTypeOf (f : Forest) (v : Value) : Except Failure SourceType :=
  match v.text?.bind SourceType.ofWord? with
  | some t => .ok t
  | none => .error (.notSourceType (v.shown f))

/-- The policy for some options and a source type. -/
def ofOptions (f : Forest) (options : Datum) (sourceType : Value) : Except Failure Policy := do
  let entries ← entriesOf options
  match unknownNames entries with
  | [] =>
    let allowGlobals ← allowGlobalsOf entries
    let t ← sourceTypeOf f sourceType
    return ⟨allowGlobals, t = .module⟩
  | names => .error (.unknownOptions names)

end Policy

end TagScope
