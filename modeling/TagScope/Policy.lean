import TagScope.Datum
import TagScope.Scope.Kind
/-!
# Policy

What an analysed unit is and which declarations count for it.

* `SourceType`: a module or a script.
* `Policy.boundary`: the kind of scope beyond which no name is looked for. **Only a module that may
  not use global names stops at its module scope.**
-/

namespace TagScope

/-! ## 1. Source types -/

/-- The declared type of a unit. -/
inductive SourceType where
  | module
  | script
deriving DecidableEq, Repr

namespace SourceType

/-- Every source type, in order. -/
def all : List SourceType := [module, script]

/-- The word for a source type in options. -/
def word : SourceType → String
  | module => "module"
  | script => "script"

/-- The name of a source type. -/
def name : SourceType → String
  | module => "MODULE"
  | script => "SCRIPT"

/-- The source type with its enumeration. -/
def shown (t : SourceType) : String := "SourceType." ++ t.name

/-- The source type of a given name. -/
def ofName? (s : String) : Option SourceType := all.find? (·.name = s)

/-- The source type that a word in options stands for. -/
def ofWord? (s : String) : Option SourceType := all.find? (·.word = s)

theorem word_ne_empty (t : SourceType) : t.word ≠ "" := by cases t <;> decide

end SourceType

/-! ## 2. Policies -/

/-- How names are resolved in one run. -/
structure Policy where
  /-- Whether names declared outside of the module count. -/
  allowGlobals : Bool
  /-- Whether the unit is a module. -/
  sourceIsModule : Bool
deriving DecidableEq, Repr

namespace Policy

/-- The kind of scope at which the search for names ends. -/
def boundary (c : Policy) : ScopeKind :=
  if c.allowGlobals || !c.sourceIsModule then .global else .module

/-- The constructor call. -/
def shown (c : Policy) : String :=
  "ResolutionConfig(allow_globals=" ++ Datum.boolShown c.allowGlobals
    ++ ", source_is_module=" ++ Datum.boolShown c.sourceIsModule ++ ")"

end Policy

end TagScope
