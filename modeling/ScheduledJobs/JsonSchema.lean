/-
**Schemas of flat JSON objects.**

The keywords of JSON Schema, draft 2020-12, that are about objects whose members are no objects.  A
schema names the members an object must have, and what the values of some members must be like;
other members are allowed.  A keyword about texts says nothing about a number, and the other way
round, and the formats of texts are annotations: nothing is checked by them.

Main definitions:

* `Json.PropertySchema`, `Json.PropertySchema.Accepts` — a value and the keywords of its property;
* `Json.ObjectSchema`, `Json.ObjectSchema.Accepts` — **an object and its schema**.

Main results:

* `Json.PropertySchema.accepts_str`, `Json.PropertySchema.accepts_pattern`,
  `Json.PropertySchema.accepts_int`, `Json.PropertySchema.accepts_const` — values that conform.
-/

import ScheduledJobs.JsonObject

set_option relaxedAutoImplicit false
set_option autoImplicit false

namespace Json

/-! ### Values -/

/-- The types of values. -/
inductive SchemaType
  | null
  | boolean
  | integer
  | string
  deriving DecidableEq, Repr

/-- The type of a value, in the words of `type`. -/
def Scalar.schemaType : Scalar → SchemaType
  | .null => .null
  | .bool _ => .boolean
  | .int _ => .integer
  | .str _ => .string

/-- A regular expression `^[…]{n}$`, with the ranges of its characters. -/
structure Pattern where
  ranges : List (Char × Char)
  count : ℕ
  deriving DecidableEq, Repr

/-- So many characters, all of them in the ranges. -/
def Pattern.Covers (pattern : Pattern) (cs : List Char) : Prop :=
  cs.length = pattern.count ∧ ∀ c ∈ cs, ∃ range ∈ pattern.ranges, range.1 ≤ c ∧ c ≤ range.2

instance (pattern : Pattern) : DecidablePred pattern.Covers := fun _ =>
  inferInstanceAs (Decidable (_ ∧ _))

/-- The text is matched.  A line feed may stand between `$` and the end of the text. -/
def Pattern.Matches (pattern : Pattern) (text : String) : Prop :=
  pattern.Covers text.toList ∨
    text.toList.getLast? = some '\n' ∧ pattern.Covers text.toList.dropLast

instance (pattern : Pattern) : DecidablePred pattern.Matches := fun _ =>
  inferInstanceAs (Decidable (_ ∨ _))

/-- The keywords of a property: `type`, a name or a list of names, `const`, `minLength`, `minimum`
and `pattern`. -/
structure PropertySchema where
  types : List SchemaType
  const? : Option Scalar := none
  minLength : ℕ := 0
  minimum? : Option ℤ := none
  pattern? : Option Pattern := none
  deriving DecidableEq, Repr

/-- The keywords about values of one type. -/
def PropertySchema.Bounds (property : PropertySchema) : Scalar → Prop
  | .str text => property.minLength ≤ text.length ∧
      ∀ pattern ∈ property.pattern?, pattern.Matches text
  | .int n => ∀ bound ∈ property.minimum?, bound ≤ n
  | .null | .bool _ => True

instance (property : PropertySchema) : DecidablePred property.Bounds
  | .str _ => inferInstanceAs (Decidable (_ ∧ _))
  | .int n => inferInstanceAs (Decidable (∀ bound ∈ property.minimum?, bound ≤ n))
  | .null | .bool _ => inferInstanceAs (Decidable True)

/-- The value is what the property asks for: it is of one of the types, it is the constant if there
is one, and the keywords about its type hold of it. -/
def PropertySchema.Accepts (property : PropertySchema) (value : Scalar) : Prop :=
  value.schemaType ∈ property.types ∧ (∀ const ∈ property.const?, value = const) ∧
    property.Bounds value

instance (property : PropertySchema) : DecidablePred property.Accepts := fun _ =>
  inferInstanceAs (Decidable (_ ∧ _ ∧ _))

namespace PropertySchema

/-- A text, for a property that asks for one of a length. -/
theorem accepts_str {text : String} {n : ℕ} (h : n ≤ text.length) :
    ∀ value ∈ some (Scalar.str text), Accepts { types := [.string], minLength := n } value := by
  rintro _ ⟨⟩
  exact ⟨List.mem_singleton_self _, fun _ hconst => (nomatch hconst), h,
    fun _ hpattern => (nomatch hpattern)⟩

/-- A text that its pattern matches. -/
theorem accepts_pattern {text : String} {pattern : Pattern} (h : pattern.Matches text) :
    ∀ value ∈ some (Scalar.str text),
      Accepts { types := [.string], pattern? := some pattern } value := by
  rintro _ ⟨⟩
  exact ⟨List.mem_singleton_self _, fun _ hconst => (nomatch hconst), Nat.zero_le _,
    fun _ hpattern => Option.some_inj.1 hpattern ▸ h⟩

/-- An integer that is large enough. -/
theorem accepts_int {n bound : ℤ} (h : bound ≤ n) :
    ∀ value ∈ some (Scalar.int n),
      Accepts { types := [.integer], minimum? := some bound } value := by
  rintro _ ⟨⟩
  exact ⟨List.mem_singleton_self _, fun _ hconst => (nomatch hconst),
    fun _ hbound => Option.some_inj.1 hbound ▸ h⟩

/-- An integer that is the one that is asked for. -/
theorem accepts_const (n : ℤ) :
    ∀ value ∈ some (Scalar.int n),
      Accepts { types := [.integer], const? := some (.int n) } value := by
  rintro _ ⟨⟩
  exact ⟨List.mem_singleton_self _, fun _ hconst => Option.some_inj.1 hconst,
    fun _ hbound => nomatch hbound⟩

end PropertySchema

/-! ### Objects -/

/-- The keywords of an object: `required` and `properties`, with `additionalProperties` true. -/
structure ObjectSchema where
  required : List String
  properties : List (String × PropertySchema)
  deriving DecidableEq, Repr

/-- **The object is what the schema asks for**: it has the members that are required, and those of
its members that are properties are what these ask for. -/
def ObjectSchema.Accepts (schema : ObjectSchema) (data : Object) : Prop :=
  (∀ key ∈ schema.required, (data.get? key).isSome = true) ∧
    ∀ p ∈ schema.properties, ∀ value ∈ data.get? p.1, p.2.Accepts value

instance (schema : ObjectSchema) : DecidablePred schema.Accepts := fun _ =>
  inferInstanceAs (Decidable (_ ∧ _))

end Json
