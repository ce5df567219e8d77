import TagScope.Forest.Visible
/-!
# Checking elements

Whether the names of elements are declared where they are used.

* `Forest.examine`: one name in one scope. A name that refers to nothing is skipped, the
  receiver is always bound, and **only an unbound reference is reported**.
* `Forest.examineUnit`: the names of a unit, one after the other, with all diagnostics in order.
-/

namespace TagScope

/-! ## 1. One element -/

/-- Checks one name used in a scope; no verdict means that there was nothing to resolve. -/
def Forest.examine (f : Forest) (node scope policy : Value) : Traced (Option Verdict) :=
  match node.reference? with
  | none => do
    Traced.note (.skipped node)
    return none
  | some r =>
    if r.name.text = receiverName then return some .bound
    else do
      let v ← f.verdictOn (.ofIdentifier r.name) scope policy
      if v = .unbound then
        Traced.note (.unbound r)
        Traced.report r.diagnostic
      return some v

/-! ## 2. A unit -/

/-- What stands for an element of a unit. -/
inductive Element where
  /-- A sequence of values; it should be a name and a scope. -/
  | sequence (vs : List Value)
  | raw (d : Datum)

/-- The name and the scope of an element. -/
def Element.toPair : Element → Except Failure (Value × Value)
  | .sequence vs => ofList vs
  | .raw d =>
    match d.items? with
    | some items => ofList (items.map .datum)
    | none => .error (.notPair (Value.datumShape d))
where
  /-- A list as a pair. -/
  ofList : List Value → Except Failure (Value × Value)
    | [] => .error (.tooFew 0)
    | [_] => .error (.tooFew 1)
    | [a, b] => .ok (a, b)
    | _ => .error .tooMany

/-- Where the elements of a unit come from. -/
inductive Elements where
  | given (es : List Element)
  | raw (d : Datum)

/-- The elements one after the other. -/
def Elements.toList : Elements → Except Failure (List Element)
  | .given es => .ok es
  | .raw d =>
    match d.items? with
    | some items => .ok (items.map .raw)
    | none => .error (.notIterable (Value.datumShape d))

namespace Forest

/-- Checks the elements of a list one after the other, up to the first failure. -/
def examineAll (f : Forest) (policy : Value) : List Element → Traced Unit
  | [] => return
  | e :: rest => do
    let (node, scope) ← Traced.ofExcept e.toPair
    let _ ← f.examine node scope policy
    f.examineAll policy rest

/-- Checks a unit; the diagnostics are the reports of the computation. -/
def examineUnit (f : Forest) (elements : Elements) (policy : Value) : Traced Unit := do
  f.examineAll policy (← Traced.ofExcept elements.toList)

end Forest

end TagScope
