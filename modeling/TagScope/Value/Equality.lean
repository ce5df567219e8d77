import TagScope.Value
/-!
# Equality of values

When two values are equal, and what one of them alone has to say about it.

* `Value.same`: equality. Numbers are compared as numbers and texts as texts, **whatever sort of
  value they come from**; scopes are equal to themselves only.
* `Value.opinion`: the answer that the first value gives when asked about the second; `none` means
  that it leaves the question to the other one.
* `Value.toMember`: values that a set can hold; lists and dictionaries keep a value out of sets.
* `Value.firsts`: for each value of a list the place of the first one that is equal to it.
-/

namespace TagScope

namespace Value

/-! ## 1. Equality -/

/-- Whether two values are equal. -/
def same : Value → Value → Bool
  | .datum a, .datum b => a.same b
  | .datum a, .kind k => a.toInt? == some (k.number : Int)
  | .kind k, .datum a => a.toInt? == some (k.number : Int)
  | .kind k, .kind m => k == m
  | .sourceType t, .sourceType u => t == u
  | .sourceType t, .datum (.text s) => t.word == s
  | .datum (.text s), .sourceType t => t.word == s
  | .verdict v, .verdict w => v == w
  | .location l, .location m => l.same m
  | .name n, .name m => n.same m
  | .reference n l, .reference m k => n.same m && l.same k
  | .diagnostic l m, .diagnostic k n => l.same k && m.same n
  | .policy c, .policy d => c == d
  | .scope i, .scope j => i == j
  | _, _ => false

/-- Whether two values are different. -/
def differ (a b : Value) : Bool := !a.same b

/-! ## 2. One side of the question -/

/-- An answer only if it is yes. -/
def onlyYes (b : Bool) : Option Bool := if b then some true else none

/-- What a datum answers when asked whether it equals another one. -/
def datumOpinion : Datum → Datum → Option Bool
  | .null, .null => some true
  | .text s, .text t => some (s == t)
  | .list l, .list m => some (Datum.same (.list l) (.list m))
  | .mapping l, .mapping m => some (Datum.same (.mapping l) (.mapping m))
  | .decimal a, .decimal b => some (a == b)
  | .decimal _, b => b.toInt?.map fun _ => false
  | a, b =>
    match a.toInt?, b.toInt? with
    | some m, some n => some (m == n)
    | _, _ => none

/-- What the first value answers when asked whether it equals the second. -/
def opinion : Value → Value → Option Bool
  | .datum a, .datum b => datumOpinion a b
  | .datum a, .kind k => datumOpinion a (.int k.number)
  | .kind k, .datum b => datumOpinion (.int k.number) b
  | .kind k, .kind m => some (k == m)
  | .sourceType t, .sourceType u => some (t == u)
  | .sourceType t, .datum (.text s) => some (t.word == s)
  | .datum (.text s), .sourceType t => some (t.word == s)
  | .verdict v, .verdict w => onlyYes (v == w)
  | .location l, .location m => some (l.same m)
  | .name n, .name m => some (n.same m)
  | .reference n l, .reference m k => some (n.same m && l.same k)
  | .diagnostic l m, .diagnostic k n => some (l.same k && m.same n)
  | .policy c, .policy d => some (c == d)
  | .scope i, .scope j => onlyYes (i == j)
  | _, _ => none

/-! ## 3. Sets of values -/

/-- The sort of the list or dictionary that keeps a datum out of sets, if one does. -/
def datumUnhashable? : Datum → Option Shape
  | .list _ => some .list
  | .mapping _ => some .mapping
  | _ => none

/-- The sort of the first list or dictionary among the fields of a value that keeps it out of
    sets. -/
def unhashable? : Value → Option Shape
  | .datum d => datumUnhashable? d
  | .reference n l => n.unhashable? <|> l.unhashable?
  | .diagnostic l m => l.unhashable? <|> m.unhashable?
  | _ => none

/-- A value as a member of a set. -/
def toMember (v : Value) : Except Failure Value :=
  match v.unhashable? with
  | some s => .error (.unhashable s)
  | none => .ok v

/-- For each value the place of the first value equal to it. -/
def firsts (vs : List Value) : List Nat := vs.map fun v => vs.findIdx fun w => w.same v

end Value

end TagScope
