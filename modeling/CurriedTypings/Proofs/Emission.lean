import CurriedTypings.Emitter

/-!
# What an emitter writes

Everything an emitter writes goes behind what its buffer holds. `put` says so for
given lines, and the parts of a module are given as lines: `e.function c` is
`e.put (functionLines e.options c)`, and so on up to whole modules. The lines of a
part depend on the options alone; how far they are indented depends on the level, and
what is in the buffer has no influence on either.

Putting lines is closed under doing one step after another (`put_put`), under loops
(`foldl_eq_put`) and under indenting a step (`dedent_put_indent`), which is all that
the parts are built with.
-/

namespace CurriedTypings

inductive Line where
  /-- A statement, `depth` levels further in than what surrounds it. -/
  | statement (depth : Nat) (text : String)
  | blank
  deriving DecidableEq, Repr, Inhabited

namespace Line

def render (level : Nat) : Line → String
  | statement depth text => indentation (level + depth) ++ text ++ "\n"
  | blank => "\n"

def deeper : Line → Line
  | statement depth text => statement (depth + 1) text
  | blank => blank

def renderAll (level : Nat) (lines : List Line) : String := String.join (lines.map (render level))

@[simp] theorem renderAll_nil (level : Nat) : renderAll level [] = "" := by simp [renderAll]

@[simp] theorem renderAll_cons (level : Nat) (l : Line) (lines : List Line) :
    renderAll level (l :: lines) = l.render level ++ renderAll level lines := by simp [renderAll]

@[simp] theorem renderAll_append (level : Nat) (xs ys : List Line) :
    renderAll level (xs ++ ys) = renderAll level xs ++ renderAll level ys := by simp [renderAll]

theorem render_deeper (level : Nat) (l : Line) : l.deeper.render level = l.render (level + 1) := by
  cases l with
  | statement depth text => simp only [deeper, render, Nat.add_comm depth 1, ← Nat.add_assoc]
  | blank => rfl

theorem renderAll_deeper (level : Nat) (lines : List Line) :
    renderAll level (lines.map deeper) = renderAll (level + 1) lines := by
  simp only [renderAll, List.map_map, Function.comp_def, render_deeper]

end Line

namespace Emitter

variable {α : Type}

/-- Writes lines at the current indentation. -/
def put (e : Emitter) (lines : List Line) : Emitter :=
  { e with buffer := e.buffer ++ Line.renderAll e.level lines }

@[simp] theorem put_options (e : Emitter) (lines : List Line) : (e.put lines).options = e.options :=
  rfl

@[simp] theorem put_put (e : Emitter) (xs ys : List Line) :
    (e.put xs).put ys = e.put (xs ++ ys) := by
  simp [put, String.append_assoc]

theorem statement_eq_put (e : Emitter) (text : String) :
    e.statement text = e.put [.statement 0 text] := by
  simp [statement, put, Line.render]

theorem blankLine_eq_put (e : Emitter) : e.blankLine = e.put [.blank] := by
  simp [blankLine, put, Line.render]

theorem foldl_eq_put {f : Emitter → α → Emitter} (lines : ModuleOptions → α → List Line)
    (h : ∀ e a, f e a = e.put (lines e.options a)) :
    ∀ (xs : List α) (e : Emitter), xs.foldl f e = e.put (xs.flatMap (lines e.options))
  | [], e => by simp [put]
  | x :: xs, e => by
      rw [List.foldl_cons, h, foldl_eq_put lines h xs, put_put, put_options]
      rfl

theorem dedent_put_indent (e : Emitter) (lines : List Line) :
    (e.indent.put lines).dedent = e.put (lines.map Line.deeper) := by
  simp only [put, Line.renderAll_deeper]
  rfl

/-! ## The parts of a module -/

def statementLines (texts : List String) : List Line := texts.map (.statement 0)

def headerLine (options : ModuleOptions) : Line :=
  .statement 0 ("declare module '" ++ options.moduleName ++ "' \x7b")

def footerLine : Line := .statement 0 "\x7d"

def continuationLines (d : ContinuationDefinition) : List Line :=
  .statement 0 ("interface " ++ continuationName d.arity ++ TypeVar.paramList d.typeParams ++ " \x7b")
    :: (d.signatures.map fun s => .statement 1 (s.signature ++ ";")) ++ [.statement 0 "\x7d"]

def callbackLine (k : CallbackArity) : Line :=
  .statement 0 ("type " ++ k.typeName ++ "<T, R> = " ++ k.arrow "T" "R" ++ ";")

def containerLines : List Line :=
  statementLines
      ["type " ++ objectName ++ "<T> = \x7b [key: string]: T \x7d | \x7b [key: number]: T \x7d;",
        "type " ++ collectionName ++ "<T> = " ++ objectName ++ "<T> | T[];"]
    ++ [.blank]

def helperLines (definitions : List ContinuationDefinition) : List Line :=
  containerLines ++ (definitions.flatMap fun d => continuationLines d ++ [.blank])
    ++ [callbackLine .unary, callbackLine .binary, .blank]

def markerLine (options : ModuleOptions) (name : String) : Line :=
  .statement 0 ("// " ++ options.docPrefix ++ name)

def reexportLines (options : ModuleOptions) (b : AliasBinding) : List Line :=
  [markerLine options b.name,
    .statement 0 ("export const " ++ b.name ++ ": typeof " ++ b.target ++ ";")]

def overloadLine (c : CurriedFunction) (o : Overload) : Line :=
  .statement 0 ("export function " ++ c.name ++ TypeVar.paramList c.plan.typeParams ++ o.signature
    ++ ";")

def functionLines (options : ModuleOptions) (c : CurriedFunction) : List Line :=
  markerLine options c.name
    :: (c.overloads.map (overloadLine c) ++ c.aliases.flatMap (reexportLines options) ++ [.blank])

/-- A module: everything between its header and its footer is one level deeper. -/
def moduleLines (options : ModuleOptions) (definitions : List ContinuationDefinition)
    (functions : List CurriedFunction) : List Line :=
  headerLine options
    :: ((helperLines definitions ++ functions.flatMap (functionLines options)).map Line.deeper
      ++ [footerLine])

theorem statements_eq_put (e : Emitter) (texts : List String) :
    e.statements texts = e.put (statementLines texts) := by
  rw [statements, foldl_eq_put (fun _ text => [.statement 0 text]) statement_eq_put,
    statementLines, List.map_eq_flatMap]

theorem header_eq_put (e : Emitter) : e.header = (e.put [headerLine e.options]).indent := by
  rw [header, statement_eq_put]
  rfl

theorem footer_eq_put (e : Emitter) : e.footer = e.dedent.put [footerLine] :=
  statement_eq_put e.dedent _

theorem continuation_eq_put (e : Emitter) (d : ContinuationDefinition) :
    e.continuation d = e.put (continuationLines d) := by
  have hsignatures : (statementLines (d.signatures.map fun s => s.signature ++ ";")).map Line.deeper
      = d.signatures.map fun s => .statement 1 (s.signature ++ ";") := by
    simp [statementLines, Line.deeper]
  simp only [continuation, statement_eq_put, statements_eq_put, dedent_put_indent, put_put,
    hsignatures]
  rfl

theorem callback_eq_put (e : Emitter) (k : CallbackArity) : e.callback k = e.put [callbackLine k] :=
  statement_eq_put e _

theorem helpers_eq_put (e : Emitter) (definitions : List ContinuationDefinition) :
    e.helpers definitions = e.put (helperLines definitions) := by
  have hinterfaces : ∀ e : Emitter, definitions.foldl (fun e d => (e.continuation d).blankLine) e
      = e.put (definitions.flatMap fun d => continuationLines d ++ [.blank]) := by
    intro e
    refine foldl_eq_put (fun _ d => continuationLines d ++ [.blank]) (fun e d => ?_) _ e
    rw [continuation_eq_put, blankLine_eq_put, put_put]
  simp only [helpers, hinterfaces]
  simp only [statements_eq_put, blankLine_eq_put, callback_eq_put, put_put]
  simp [helperLines, containerLines]

theorem reexport_eq_put (e : Emitter) (b : AliasBinding) :
    e.reexport b = e.put (reexportLines e.options b) := by
  simp only [reexport, marker, statement_eq_put, put_put]
  rfl

theorem function_eq_put (e : Emitter) (c : CurriedFunction) :
    e.function c = e.put (functionLines e.options c) := by
  have haliases := foldl_eq_put reexportLines reexport_eq_put c.aliases
  have hoverloads : statementLines (c.overloads.map fun o =>
      "export function " ++ c.name ++ TypeVar.paramList c.plan.typeParams ++ o.signature ++ ";")
        = c.overloads.map (overloadLine c) := List.map_map
  simp only [function, marker, statement_eq_put, statements_eq_put, haliases, blankLine_eq_put,
    put_put, put_options, hoverloads]
  simp [functionLines, markerLine]

/-- A whole module, header and footer included, leaves the level as it was. -/
theorem module_eq_put (e : Emitter) (definitions : List ContinuationDefinition)
    (functions : List CurriedFunction) :
    e.module definitions functions = (e.put (moduleLines e.options definitions functions)).take := by
  have hfunctions := foldl_eq_put functionLines function_eq_put functions
  have hindent : ∀ e : Emitter, e.indent.options = e.options := fun _ => rfl
  simp only [module, header_eq_put, helpers_eq_put, hfunctions, footer_eq_put, put_put, put_options,
    hindent, dedent_put_indent]
  rfl

theorem functionBlock_eq (options : ModuleOptions) (c : CurriedFunction) :
    functionBlock options c = Line.renderAll 1 (functionLines options c) := by
  simp [functionBlock, function_eq_put, put]

end Emitter

end CurriedTypings
