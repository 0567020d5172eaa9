import Gcit.Library.Json
import Mathlib.Data.List.Basic

/-! # Handlebars templates over JSON data

A compiled template is a list of elements. What a strict registry does with the
plain ones, literal text and dotted references, is all that is said of rendering:
it succeeds exactly if every reference leads somewhere in the data. Where a path
leads depends on the keys of the data alone, which `shape` keeps.
-/

namespace Gcit.Library

namespace Json

def get? : Json → String → Option Json
  | .object fields, key => fields.lookup key
  | .array items, key => key.toNat?.bind fun i => items[i]?
  | _, _ => none

def follow : Json → List String → Option Json
  | j, [] => some j
  | j, key :: path => (j.get? key).bind fun child => follow child path

/-- The data with every leaf blanked. -/
def shape : Json → Json
  | .array items => .array (shapeItems items)
  | .object fields => .object (shapeFields fields)
  | .null | .bool _ | .number _ | .string _ => .null
where
  shapeItems : List Json → List Json
    | [] => []
    | j :: items => shape j :: shapeItems items
  shapeFields : List (String × Json) → List (String × Json)
    | [] => []
    | (key, j) :: fields => (key, shape j) :: shapeFields fields

theorem getElem?_shapeItems (items : List Json) (i : Nat) :
    (shape.shapeItems items)[i]? = items[i]?.map shape := by
  induction items generalizing i with
  | nil => rfl
  | cons j items ih =>
    cases i with
    | zero => rfl
    | succ i => exact ih i

theorem lookup_shapeFields (fields : List (String × Json)) (key : String) :
    (shape.shapeFields fields).lookup key = (fields.lookup key).map shape := by
  induction fields with
  | nil => rfl
  | cons f fields ih =>
    obtain ⟨k, j⟩ := f
    rw [shape.shapeFields, List.lookup_cons, List.lookup_cons]
    cases key == k with
    | true => rfl
    | false => exact ih

theorem get?_shape (j : Json) (key : String) : j.shape.get? key = (j.get? key).map shape := by
  cases j with
  | object fields => exact lookup_shapeFields fields key
  | array items =>
    simp only [shape, get?]
    cases key.toNat? with
    | none => rfl
    | some i => exact getElem?_shapeItems items i
  | null => rfl
  | bool b => rfl
  | number q => rfl
  | string s => rfl

theorem follow_shape (j : Json) (path : List String) :
    j.shape.follow path = (j.follow path).map shape := by
  induction path generalizing j with
  | nil => rfl
  | cons key path ih =>
    rw [follow, follow, get?_shape]
    cases j.get? key with
    | none => rfl
    | some child => exact ih child

theorem isSome_follow_congr {a b : Json} (h : a.shape = b.shape) (path : List String) :
    (a.follow path).isSome = (b.follow path).isSome := by
  rw [← Option.isSome_map (f := shape), ← follow_shape, h, follow_shape, Option.isSome_map]

/-- Without one of its members an object is reached along the paths that do not begin with
that member. -/
theorem isSome_follow_erase {fields : List (String × Json)} {key : String} {path : List String} :
    ((Json.object (fields.filter fun f => f.1 != key)).follow path).isSome = true ↔
      ((Json.object fields).follow path).isSome = true ∧ path.head? ≠ some key := by
  cases path with
  | nil => simp [follow]
  | cons k path =>
    have hlookup : (fields.filter fun f => f.1 != key).lookup k =
        if k = key then none else fields.lookup k := by
      induction fields with
      | nil => simp
      | cons f fields ih =>
        obtain ⟨l, j⟩ := f
        rcases eq_or_ne l key with rfl | hl
        · rw [List.filter_cons_of_neg (by simp), ih, List.lookup_cons]
          by_cases hk : k = l
          · simp [hk]
          · rw [if_neg hk, if_neg hk, beq_false_of_ne hk]
        · rw [List.filter_cons_of_pos (by simpa using hl), List.lookup_cons, List.lookup_cons, ih]
          by_cases hk : k = l
          · simp [hk, hl]
          · rw [beq_false_of_ne hk]
    simp only [follow, get?, hlookup, List.head?_cons, ne_eq, Option.some.injEq]
    by_cases hk : k = key
    · simp [hk]
    · simp [hk]

end Json

namespace Handlebars

inductive PathSeg where
  | named (name : String)
  /-- `this`, `..`, `@root`. -/
  | ruled
  deriving DecidableEq

inductive Parameter where
  | name (name : String)
  | path (raw : String) (segments : List PathSeg)
  /-- A literal or a subexpression. -/
  | other

def Parameter.asName : Parameter → Option String
  | .name n => some n
  | .path raw _ => some raw
  | .other => none

inductive HelperKind where
  | expression
  | htmlExpression
  | helperBlock
  deriving DecidableEq

inductive TemplateElement where
  | rawString (text : String)
  | helper (kind : HelperKind) (name : Parameter) (params : List Parameter)
      (template inverse : Option (List TemplateElement))
  /-- A comment, a decorator or a partial. -/
  | other

abbrev Template := List TemplateElement

def PathSeg.name? : PathSeg → Option String
  | .named n => some n
  | .ruled => none

def references (t : Template) : List (List String) :=
  t.filterMap fun
    | .helper _ (.path _ segments) _ _ _ => some (segments.filterMap PathSeg.name?)
    | _ => none

/-- Literal text and dotted references. -/
def Plain (t : Template) : Prop :=
  ∀ e ∈ t, (∃ text, e = .rawString text) ∨
    ∃ kind raw, ∃ path : List String, kind ≠ HelperKind.helperBlock ∧
      e = .helper kind (.path raw (path.map PathSeg.named)) [] none none

/-- A registry with its settings. An error is known by its text; `named` puts the name of
the template into the text of a compile error. -/
structure Registry where
  compile : String → Except String Template
  named : String → String → String
  render : Template → Json → Except String String

namespace Registry

variable (hb : Registry)

def registerTemplateString (name text : String) : Except String Template :=
  (hb.compile text).mapError (hb.named name)

def renderTemplate (text : String) (ctx : Json) : Except String String :=
  (hb.compile text).bind fun t => hb.render t ctx

def Strict : Prop :=
  ∀ (t : Template) (ctx : Json), Plain t →
    ((∃ out, hb.render t ctx = .ok out) ↔
      ∀ path ∈ references t, (ctx.follow path).isSome = true)

variable {hb}

theorem Strict.renderTemplate_iff (h : hb.Strict) {text : String} {t : Template}
    (hcompile : hb.compile text = .ok t) (hplain : Plain t) (ctx : Json) :
    (∃ out, hb.renderTemplate text ctx = .ok out) ↔
      ∀ path ∈ references t, (ctx.follow path).isSome = true := by
  rw [← h t ctx hplain, renderTemplate, hcompile]
  rfl

end Registry

section Interpreter

def leafText (number : Rat → String) : Json → String
  | .null => ""
  | .bool b => toString b
  | .number q => number q
  | .string s => s
  | .array _ => "[]"
  | .object _ => "[object]"

/-- What a strict registry without an escape function does with the elements of plain
templates; it refuses the others. -/
def renderElement (number : Rat → String) (ctx : Json) : TemplateElement → Except String String
  | .rawString text => .ok text
  | .helper _ (.path raw segments) _ _ _ =>
    match ctx.follow (segments.filterMap PathSeg.name?) with
    | some j => .ok (leafText number j)
    | none => .error (raw ++ " not found in strict mode")
  | _ => .error "not a plain template"

def renderElements (number : Rat → String) (ctx : Json) : Template → Except String String
  | [] => .ok ""
  | e :: t => do
    let head ← renderElement number ctx e
    let tail ← renderElements number ctx t
    return head ++ tail

theorem renderElements_ok_iff {number : Rat → String} {ctx : Json} {t : Template}
    (h : Plain t) : (∃ out, renderElements number ctx t = .ok out) ↔
      ∀ path ∈ references t, (ctx.follow path).isSome = true := by
  induction t with
  | nil => simp [renderElements, references]
  | cons e t ih =>
    have ih := ih fun e he => h e (List.mem_cons_of_mem _ he)
    have hbind : (∃ out, renderElements number ctx (e :: t) = .ok out) ↔
        (∃ out, renderElement number ctx e = .ok out) ∧
          ∃ out, renderElements number ctx t = .ok out := by
      rw [renderElements]
      cases renderElement number ctx e with
      | error m => simp [bind, Except.bind]
      | ok head => cases renderElements number ctx t <;> simp [bind, Except.bind, pure, Except.pure]
    rw [hbind, ih]
    obtain ⟨text, rfl⟩ | ⟨kind, raw, path, hkind, rfl⟩ := h e List.mem_cons_self
    · simp [renderElement, references]
    · have hnames : (path.map PathSeg.named).filterMap PathSeg.name? = path := by
        simp [List.filterMap_map, Function.comp_def, PathSeg.name?]
      have helem : (∃ out, renderElement number ctx
          (.helper kind (.path raw (path.map PathSeg.named)) [] none none) = .ok out) ↔
            (ctx.follow path).isSome = true := by
        rw [renderElement, hnames]
        cases ctx.follow path <;> simp
      have hrefs : references
          (.helper kind (.path raw (path.map PathSeg.named)) [] none none :: t) =
            path :: references t := by
        simp only [references, List.filterMap_cons, hnames]
      rw [helem, hrefs, List.forall_mem_cons]

end Interpreter

end Handlebars

end Gcit.Library
