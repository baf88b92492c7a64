import FirstMatch.Proofs.Table.Placement
import Mathlib.Logic.Relation

/-!
The positions of a table in a document: where a table, a rule, a condition or an action stands, in
whatever form it is written, and what makes one complete there.
-/

namespace FirstMatch

/-- What the field of an operation holds: any JSON value, a number, or conditions or actions like
the one that it belongs to. -/
inductive Content where
  | value
  | number
  | one
  | many

structure Form where
  name : String
  field : Option (String × Content)

inductive Kind where
  | condition
  | action

inductive Role where
  | table
  | rule
  | operand (kind : Kind)

abbrev Position := Role × Document

namespace Document

def entries (name : String) (place : Nat) : Document → List Document
  | .token _ => []
  | .list items => items[place]?.toList
  | .object members => (members.filter fun m => Piece.string? .strict m.1 = some name).map (·.2)

end Document

def Content.Fits : Content → Document → Prop
  | value, _ => True
  | number, d => ∃ n, d.value? .strict = some (.number n)
  | one, _ => True
  | many, d => ∃ ds, d = .list ds

namespace Kind

def forms : Kind → List Form
  | condition => [⟨"always", none⟩, ⟨"never", none⟩, ⟨"is_null", none⟩, ⟨"is_number", none⟩,
      ⟨"is_string", none⟩, ⟨"equals", some ("value", .value)⟩,
      ⟨"less_than", some ("value", .number)⟩, ⟨"greater_than", some ("value", .number)⟩,
      ⟨"not", some ("predicate", .one)⟩, ⟨"all", some ("predicates", .many)⟩,
      ⟨"any", some ("predicates", .many)⟩]
  | action => [⟨"identity", none⟩, ⟨"null", none⟩, ⟨"constant", some ("value", .value)⟩,
      ⟨"negate", none⟩, ⟨"scale", some ("factor", .number)⟩, ⟨"offset", some ("by", .number)⟩,
      ⟨"to_string", none⟩, ⟨"chain", some ("steps", .many)⟩]

def chosen? (k : Kind) : Json → Option Form
  | .string name => k.forms.find? fun f => f.name == name
  | .number (.integer n) => if 0 ≤ n then k.forms[n.toNat]? else none
  | _ => none

def form? (k : Kind) (tag : Document) : Option Form := (tag.value? .strict).bind k.chosen?

/-- Where a condition or an action stands directly within another one: in the field of an operation
that this one calls for. -/
inductive Inner (k : Kind) (d : Document) : Document → Prop where
  | one {tag e : Document} {f : Form} {name : String} (op : tag ∈ d.entries "op" 0)
      (form : k.form? tag = some f) (field : f.field = some (name, .one))
      (entry : e ∈ d.entries name 1) : Inner k d e
  | many {tag e : Document} {f : Form} {name : String} {es : List Document}
      (op : tag ∈ d.entries "op" 0) (form : k.form? tag = some f)
      (field : f.field = some (name, .many)) (entry : .list es ∈ d.entries name 1) (mem : e ∈ es) :
      Inner k d e

/-- As an object a condition or an action gives its operation once, and the field of that
operation once. As a sequence it has the operation, the field and nothing else. -/
inductive Complete (k : Kind) : Document → Prop where
  | object {ms : List (List Piece × Document)} {tag : Document} {f : Form}
      (op : (Document.object ms).entries "op" 0 = [tag]) (form : k.form? tag = some f)
      (field : ∀ p ∈ f.field, ((Document.object ms).entries p.1 1).length = 1) :
      Complete k (.object ms)
  | list {tag : Document} {ds : List Document} {f : Form} (form : k.form? tag = some f)
      (length : ds.length = f.field.toList.length) : Complete k (.list (tag :: ds))

/-- The document stands for a value, and its field is of the type that the operation takes, whether
or not it stands there once. -/
structure Proper (k : Kind) (d : Document) : Prop where
  readable : (d.value? .strict).isSome = true
  field : ∀ tag ∈ d.entries "op" 0, ∀ f, k.form? tag = some f → ∀ p ∈ f.field,
    ∀ e ∈ d.entries p.1 1, p.2.Fits e

end Kind

/-- Where a rule, a condition or an action stands directly within a table or a part of it. With
several members of one name, all that stand under it count. -/
inductive Part : Position → Position → Prop where
  | rule {d e : Document} {rs : List Document} (rules : .list rs ∈ d.entries "rules" 0)
      (mem : e ∈ rs) : Part (.table, d) (.rule, e)
  | fallback {d e : Document} (entry : e ∈ d.entries "default" 1) (given : e ≠ .token .null) :
      Part (.table, d) (.operand .action, e)
  | condition {d e : Document} (entry : e ∈ d.entries "when" 0) :
      Part (.rule, d) (.operand .condition, e)
  | action {d e : Document} (entry : e ∈ d.entries "then" 1) :
      Part (.rule, d) (.operand .action, e)
  | operand {k : Kind} {d e : Document} (inner : k.Inner d e) :
      Part (.operand k, d) (.operand k, e)

def Stands (d : Document) (p : Position) : Prop := Relation.ReflTransGen Part (.table, d) p

inductive Complete : Position → Prop where
  | tableObject {ms : List (List Piece × Document)}
      (rules : ((Document.object ms).entries "rules" 0).length ≤ 1)
      (fallback : ((Document.object ms).entries "default" 1).length ≤ 1) :
      Complete (.table, .object ms)
  | tableList {ds : List Document} (length : ds.length ≤ 2) : Complete (.table, .list ds)
  | ruleObject {ms : List (List Piece × Document)}
      (condition : ((Document.object ms).entries "when" 0).length = 1)
      (action : ((Document.object ms).entries "then" 1).length = 1) :
      Complete (.rule, .object ms)
  | ruleList {ds : List Document} (length : ds.length = 2) : Complete (.rule, .list ds)
  | operand {k : Kind} {d : Document} (complete : k.Complete d) : Complete (.operand k, d)

def Document.Named (d : Document) : Prop :=
  ∀ ms, d = .object ms → ∀ m ∈ ms, (Piece.string? .strict m.1).isSome = true

/-- What stands here is of the right type, whether or not it stands here once. Directly in a rule
or a table the operation is given by its name. -/
def Proper : Position → Prop
  | (.table, d) => d.Named ∧ (∀ e ∈ d.entries "rules" 0, ∃ rs, e = .list rs) ∧
      ∀ e ∈ d.entries "default" 1, e.NamesOperation
  | (.rule, d) => d.Named ∧ (∀ e ∈ d.entries "when" 0, e.NamesOperation) ∧
      ∀ e ∈ d.entries "then" 1, e.NamesOperation
  | (.operand k, d) => k.Proper d

end FirstMatch
