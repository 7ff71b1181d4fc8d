import ComponentLowering.Descriptor
import ComponentLowering.Diagnostic
/-!
The lowered tree of a document: nodes with a kind, ordered children and the diagnostics attached to
them.
-/

namespace ComponentLowering

/-- The model a document was written for. -/
inductive FileKind where
  | component
  | legacy
  deriving DecidableEq, Repr

instance : Named FileKind where
  all := [.component, .legacy]
  name
    | .component => "component"
    | .legacy => "legacy"
  mem_all a := by cases a <;> simp
  name_injective a b := by cases a <;> cases b <;> simp

/-- Whether a token stands for code or for markup. -/
inductive TokenKind where
  | code
  | markup
  deriving DecidableEq, Repr

instance : Named TokenKind where
  all := [.code, .markup]
  name
    | .code => "code"
    | .markup => "markup"
  mem_all a := by cases a <;> simp
  name_injective a b := by cases a <;> cases b <;> simp

/-- The kinds of node, without what belongs to each. -/
inductive Tag where
  | document
  | tagHelper
  | tagHelperBody
  | propertyBinding
  | htmlAttribute
  | genericValue
  | htmlContent
  | expression
  | codeBlock
  | template
  | token
  deriving DecidableEq, Repr

namespace Tag

instance : Named Tag where
  all := [document, tagHelper, tagHelperBody, propertyBinding, htmlAttribute, genericValue,
    htmlContent, expression, codeBlock, template, token]
  name
    | document => "document"
    | tagHelper => "tagHelper"
    | tagHelperBody => "tagHelperBody"
    | propertyBinding => "propertyBinding"
    | htmlAttribute => "htmlAttribute"
    | genericValue => "genericValue"
    | htmlContent => "htmlContent"
    | expression => "expression"
    | codeBlock => "codeBlock"
    | template => "template"
    | token => "token"
  mem_all a := by cases a <;> simp
  name_injective a b := by cases a <;> cases b <;> simp

/-- The word for a kind in messages. -/
def title : Tag → String
  | document => "Document"
  | tagHelper => "TagHelper"
  | tagHelperBody => "TagHelperBody"
  | propertyBinding => "PropertyBinding"
  | htmlAttribute => "HtmlAttribute"
  | genericValue => "GenericValue"
  | htmlContent => "HtmlContent"
  | expression => "Expression"
  | codeBlock => "CodeBlock"
  | template => "Template"
  | token => "Token"

def index (tag : Tag) : Nat :=
  tag.ctorIdx

end Tag

/-- The kind of a node, with what belongs to that kind. -/
inductive Kind where
  | document (fileKind : FileKind) (filePath : Option String)
  /-- One use of a component or tag helper. -/
  | tagHelper (tagName : String) (descriptors : List Descriptor)
  | tagHelperBody
  /-- An attribute bound to a typed property. -/
  | propertyBinding (attributeName propertyName : String)
  /-- An attribute that is passed through as markup. -/
  | htmlAttribute (attributeName : String)
  /-- An attribute value put together from fragments. -/
  | genericValue
  | htmlContent
  | expression
  | codeBlock
  | template
  | token (content : String) (tokenKind : TokenKind)
  deriving DecidableEq, Repr

def Kind.tag : Kind → Tag
  | document .. => .document
  | tagHelper .. => .tagHelper
  | tagHelperBody => .tagHelperBody
  | propertyBinding .. => .propertyBinding
  | htmlAttribute .. => .htmlAttribute
  | genericValue => .genericValue
  | htmlContent => .htmlContent
  | expression => .expression
  | codeBlock => .codeBlock
  | template => .template
  | token .. => .token

structure Node where
  kind : Kind
  children : List Node
  diagnostics : List Diagnostic := []
  span : Option Span := none

instance : Inhabited Node :=
  ⟨{ kind := .template, children := [] }⟩

namespace Node

/-! ### Equality -/

mutual

def decEq : (a b : Node) → Decidable (a = b)
  | ⟨kind, children, diagnostics, span⟩, ⟨kind', children', diagnostics', span'⟩ =>
    match decEqAll children children' with
    | isTrue h =>
      decidable_of_iff (kind = kind' ∧ diagnostics = diagnostics' ∧ span = span') (by simp [h])
    | isFalse h => isFalse (by simp [h])

def decEqAll : (as bs : List Node) → Decidable (as = bs)
  | [], [] => isTrue rfl
  | [], _ :: _ | _ :: _, [] => isFalse (by simp)
  | a :: as, b :: bs =>
    match decEq a b, decEqAll as bs with
    | isTrue ha, isTrue has => isTrue (by rw [ha, has])
    | isFalse ha, _ => isFalse (by simp [ha])
    | _, isFalse has => isFalse (by simp [has])

end

instance : DecidableEq Node :=
  decEq

/-! ### Building -/

def document (fileKind : FileKind) (children : List Node) : Node :=
  { kind := .document fileKind none, children }

def tagHelper (tagName : String) (descriptors : List Descriptor) (children : List Node) : Node :=
  { kind := .tagHelper tagName descriptors, children }

def tagHelperBody (children : List Node) : Node :=
  { kind := .tagHelperBody, children }

/-- A binding to the property that has the name of the attribute. -/
def propertyBinding (name : String) (children : List Node) : Node :=
  { kind := .propertyBinding name name, children }

def htmlAttribute (name : String) (children : List Node) : Node :=
  { kind := .htmlAttribute name, children }

def genericValue (children : List Node) : Node :=
  { kind := .genericValue, children }

def htmlContent (children : List Node) : Node :=
  { kind := .htmlContent, children }

def expression (children : List Node) : Node :=
  { kind := .expression, children }

def codeBlock (children : List Node) : Node :=
  { kind := .codeBlock, children }

def template (children : List Node) : Node :=
  { kind := .template, children }

def token (content : String) : Node :=
  { kind := .token content .code, children := [] }

def markupToken (content : String) : Node :=
  { kind := .token content .markup, children := [] }

def withSpan (node : Node) (span : Span) : Node :=
  { node with span := some span }

/-! ### Looking at a node -/

def tag (node : Node) : Tag :=
  node.kind.tag

/-- The model of a document, and nothing for any other node. -/
def fileKind? (node : Node) : Option FileKind :=
  match node.kind with
  | .document fileKind _ => some fileKind
  | _ => none

def attributeName? (node : Node) : Option String :=
  match node.kind with
  | .propertyBinding name _ | .htmlAttribute name => some name
  | _ => none

def tokenContent? (node : Node) : Option String :=
  match node.kind with
  | .token content _ => some content
  | _ => none

def isToken (node : Node) (content : String) : Bool :=
  node.tokenContent? = some content

mutual

/-- The number of nodes in a tree. -/
def size : Node → Nat
  | ⟨_, children, _, _⟩ => sizeOfAll children + 1

def sizeOfAll : List Node → Nat
  | [] => 0
  | node :: rest => node.size + sizeOfAll rest

end

theorem size_eq (node : Node) : node.size = sizeOfAll node.children + 1 := by
  cases node; rfl

theorem size_le_sizeOfAll {node : Node} {nodes : List Node} (h : node ∈ nodes) :
    node.size ≤ sizeOfAll nodes := by
  induction nodes with
  | nil => cases h
  | cons head rest ih =>
    simp only [sizeOfAll]
    rcases List.mem_cons.mp h with rfl | h
    · omega
    · have := ih h
      omega

theorem size_lt_of_mem {child node : Node} (h : child ∈ node.children) :
    child.size < node.size := by
  rw [size_eq node]
  exact Nat.lt_succ_of_le (size_le_sizeOfAll h)

/-- What holds of a tree once it holds of all smaller trees holds of every tree. -/
@[elab_as_elim]
theorem bySize {motive : Node → Prop}
    (step : ∀ node, (∀ smaller : Node, smaller.size < node.size → motive smaller) → motive node)
    (node : Node) : motive node :=
  (measure size).wf.induction node step

theorem with_children_eq {node : Node} {children : List Node} (h : children = node.children) :
    { node with children } = node := by
  cases node; cases h; rfl

theorem isToken_congr {a b : Node} (h : a.kind = b.kind) : a.isToken = b.isToken := by
  funext content
  rw [isToken, isToken, tokenContent?, tokenContent?, h]

theorem attributeName?_congr {a b : Node} (h : a.kind = b.kind) :
    a.attributeName? = b.attributeName? := by
  rw [attributeName?, attributeName?, h]

end Node

end ComponentLowering
