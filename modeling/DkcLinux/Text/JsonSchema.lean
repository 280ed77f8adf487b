import DkcLinux.Text.JsonWire

/-!
# JSON Schema

The keywords of draft 2020-12 that constrain records of texts, integers and booleans. A keyword
accepts every value of a type it is not about, as the draft says.

| keyword                                    | about   |
|--------------------------------------------|---------|
| `type`, `const`, `enum`                    | any     |
| `minLength`, `maxLength`, `pattern`, `format` | strings |
| `minimum`                                  | numbers |
| `required`, `closed`, `properties`, `dependentRequired` | objects |
| `all`, `any`, `not`, `cond`                | any     |

`closed` is `additionalProperties: false` over the names of the sibling `properties`; `all` is a
schema object (its keywords together) as well as `allOf`, `any` is `anyOf`, `cond` is `if`. `accepts_sortKeys`: the order of the keys
of an object does not count.
-/

namespace Json

inductive SchemaType where
  | object
  | string
  | integer
  | boolean
  | null
deriving DecidableEq

/-- A float is no `integer`: the records hold none, and `dumps` refuses one. -/
def hasType : SchemaType → Json → Bool
  | .object, .obj _ => true
  | .string, .str _ => true
  | .integer, .int _ => true
  | .boolean, .bool _ => true
  | .null, .null => true
  | _, _ => false

/-- The constants a schema names. -/
inductive Constant where
  | str (s : String)
  | bool (b : Bool)
deriving DecidableEq

def isConstant : Constant → Json → Bool
  | .str s, .str t => s == t
  | .bool b, .bool c => b == c
  | _, _ => false

inductive Schema where
  | type (types : List SchemaType)
  | const (value : Constant)
  | enum (values : List Constant)
  | minLength (n : Nat)
  | maxLength (n : Nat)
  | pattern (fullmatch : List Char → Bool)
  | format (name : String)
  | minimum (n : Int)
  | required (names : List String)
  | closed (names : List String)
  | dependentRequired (names : List (String × List String))
  | properties (schemas : List (String × Schema))
  | all (schemas : List Schema)
  | any (schemas : List Schema)
  | not (schema : Schema)
  | cond (test yes no : Schema)

/-- `re.search("^...$", s)`: `$` also matches before a newline at the end. -/
def searches (fullmatch : List Char → Bool) (s : List Char) : Bool :=
  fullmatch s || (s.getLast? == some '\n' && fullmatch s.dropLast)

/-- What a keyword about strings says of a value. -/
def onString (p : String → Bool) : Json → Bool
  | .str s => p s
  | _ => true

def onInt (p : Int → Bool) : Json → Bool
  | .int n => p n
  | _ => true

def onObject (p : List (String × Json) → Bool) : Json → Bool
  | .obj fields => p fields
  | _ => true

def has (fields : List (String × Json)) (name : String) : Bool := (fields.lookup name).isSome

namespace Schema

section
variable (formats : String → String → Bool)

mutual

def accepts : Schema → Json → Bool
  | .type types, v => types.any fun t => hasType t v
  | .const value, v => isConstant value v
  | .enum values, v => values.any fun value => isConstant value v
  | .minLength n, v => onString (fun s => n ≤ s.toList.length) v
  | .maxLength n, v => onString (fun s => s.toList.length ≤ n) v
  | .pattern fullmatch, v => onString (fun s => searches fullmatch s.toList) v
  | .format name, v => onString (formats name) v
  | .minimum n, v => onInt (n ≤ ·) v
  | .required names, v => onObject (fun fields => names.all (has fields)) v
  | .closed names, v => onObject (fun fields => fields.all fun f => names.contains f.1) v
  | .dependentRequired names, v =>
    onObject (fun fields => names.all fun x => !has fields x.1 || x.2.all (has fields)) v
  | .properties schemas, v => acceptsFields schemas v
  | .all schemas, v => acceptsAll schemas v
  | .any schemas, v => acceptsAny schemas v
  | .not schema, v => !accepts schema v
  | .cond test yes no, v => if accepts test v then accepts yes v else accepts no v

def acceptsAll : List Schema → Json → Bool
  | [], _ => true
  | schema :: schemas, v => accepts schema v && acceptsAll schemas v

def acceptsAny : List Schema → Json → Bool
  | [], _ => false
  | schema :: schemas, v => accepts schema v || acceptsAny schemas v

/-- Every field that has a schema is accepted by it. -/
def acceptsFields : List (String × Schema) → Json → Bool
  | [], _ => true
  | x :: schemas, v =>
    onObject (fun fields => (fields.lookup x.1).all (accepts x.2)) v && acceptsFields schemas v

end

end

/-! ## The order of keys does not count -/

theorem hasType_sortKeys (t : SchemaType) (v : Json) : hasType t v.sortKeys = hasType t v := by
  cases v <;> cases t <;> rfl

theorem isConstant_sortKeys (c : Constant) (v : Json) : isConstant c v.sortKeys = isConstant c v := by
  cases v <;> cases c <;> rfl

theorem onString_sortKeys (p : String → Bool) (v : Json) : onString p v.sortKeys = onString p v := by
  cases v <;> rfl

theorem onInt_sortKeys (p : Int → Bool) (v : Json) : onInt p v.sortKeys = onInt p v := by
  cases v <;> rfl

theorem onObject_sortKeys {p : List (String × Json) → Bool} {v : Json}
    (h : ∀ fields, v = .obj fields → p (Py.sortedItems (sortFields fields)) = p fields) :
    onObject p v.sortKeys = onObject p v := by
  cases v with
  | obj fields => exact h fields rfl
  | null => rfl
  | bool b => rfl
  | int n => rfl
  | float l => rfl
  | str s => rfl
  | arr vs => rfl

section
variable {fields : List (String × Json)} (h : (fields.map (·.1)).Nodup)
include h

theorem lookup_sorted (name : String) :
    (Py.sortedItems (sortFields fields)).lookup name = (fields.lookup name).map sortKeys := by
  have hn : ((sortFields fields).map (·.1)).Nodup := by
    rw [sortFields_keys]
    exact h
  rw [← lookup_perm (Py.perm_sortedItems _).symm hn, lookup_sortFields]

theorem has_sorted : has (Py.sortedItems (sortFields fields)) = has fields := by
  ext name
  rw [has, lookup_sorted h, Option.isSome_map, has]

end

theorem closed_sorted (names : List String) (fields : List (String × Json)) :
    (Py.sortedItems (sortFields fields)).all (fun f => names.contains f.1) =
      fields.all fun f => names.contains f.1 := by
  rw [(Py.perm_sortedItems _).all_eq, sortFields_map, List.all_map]
  rfl

theorem nodup_of_distinct {fields : List (String × Json)} (h : (Json.obj fields).distinct = true) :
    (fields.map (·.1)).Nodup ∧ ∀ f ∈ fields, f.2.distinct = true := by
  rw [distinct, Bool.and_eq_true, distinctFields_iff] at h
  exact ⟨by simpa using h.1, h.2⟩

section
variable {formats : String → String → Bool}

mutual

/-- **A schema does not see the order of the keys.** -/
theorem accepts_sortKeys : ∀ (s : Schema) (v : Json), v.distinct = true →
    s.accepts formats v.sortKeys = s.accepts formats v
  | .type types, v, _ => by
    simp only [accepts, hasType_sortKeys]
  | .const value, v, _ => isConstant_sortKeys value v
  | .enum values, v, _ => by
    simp only [accepts, isConstant_sortKeys]
  | .minLength _, v, _ | .maxLength _, v, _ | .pattern _, v, _ | .format _, v, _ => onString_sortKeys _ v
  | .minimum _, v, _ => onInt_sortKeys _ v
  | .required names, v, h => by
    apply onObject_sortKeys
    rintro fields rfl
    simp only [has_sorted (nodup_of_distinct h).1]
  | .closed names, v, _ => by
    apply onObject_sortKeys
    rintro fields rfl
    exact closed_sorted names fields
  | .dependentRequired names, v, h => by
    apply onObject_sortKeys
    rintro fields rfl
    simp only [has_sorted (nodup_of_distinct h).1]
  | .properties schemas, v, h => acceptsFields_sortKeys schemas v h
  | .all schemas, v, h => acceptsAll_sortKeys schemas v h
  | .any schemas, v, h => acceptsAny_sortKeys schemas v h
  | .not s, v, h => by
    rw [accepts, accepts, accepts_sortKeys s v h]
  | .cond test yes no, v, h => by
    rw [accepts, accepts, accepts_sortKeys test v h, accepts_sortKeys yes v h, accepts_sortKeys no v h]

theorem acceptsAll_sortKeys : ∀ (ss : List Schema) (v : Json), v.distinct = true →
    acceptsAll formats ss v.sortKeys = acceptsAll formats ss v
  | [], _, _ => rfl
  | s :: ss, v, h => by
    rw [acceptsAll, acceptsAll, accepts_sortKeys s v h, acceptsAll_sortKeys ss v h]

theorem acceptsAny_sortKeys : ∀ (ss : List Schema) (v : Json), v.distinct = true →
    acceptsAny formats ss v.sortKeys = acceptsAny formats ss v
  | [], _, _ => rfl
  | s :: ss, v, h => by
    rw [acceptsAny, acceptsAny, accepts_sortKeys s v h, acceptsAny_sortKeys ss v h]

theorem acceptsFields_sortKeys : ∀ (ss : List (String × Schema)) (v : Json), v.distinct = true →
    acceptsFields formats ss v.sortKeys = acceptsFields formats ss v
  | [], _, _ => rfl
  | x :: ss, v, h => by
    rw [acceptsFields, acceptsFields, acceptsFields_sortKeys ss v h]
    congr 1
    apply onObject_sortKeys
    rintro fields rfl
    obtain ⟨hn, hfields⟩ := nodup_of_distinct h
    rw [lookup_sorted hn]
    cases hf : fields.lookup x.1 with
    | none => rfl
    | some v => exact accepts_sortKeys x.2 v (hfields _ ((mem_iff_lookup hn).2 hf))

end

end

end Schema

end Json
