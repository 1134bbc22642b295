import ViewWriter.Markup.Dialect

/-!
Markup of a component tree, one line for every tag.
-/

namespace ViewWriter.Markup

open ViewWriter.Text ViewWriter.Schema

/-- Elements without an end tag. -/
def voidElements : List String :=
  ["area", "base", "br", "col", "embed", "hr", "img", "input", "link", "meta", "source", "track",
    "wbr"]

namespace Dialect

def writeAttribute (d : Dialect) : Attribute → String
  | .event name handler => d.event name handler
  | .binding name expression => d.binding name expression
  | .flag name => d.attributeName name
  | .number name value => d.number name value
  | .text name value => d.staticAttribute name value

/-- The class attribute of a node with or without a style class of its own. -/
def classAttribute (d : Dialect) (styleClass : Option String) (others : List String) :
    Option String :=
  match d.moduleClass, styleClass with
  | some write, some c => some (write c others)
  | _, _ =>
    let classes := styleClass.toList ++ others
    if classes.isEmpty then none else some (d.staticAttribute "class" (join " " classes))

def propAttributes (d : Dialect) (props : Table Json) : List String :=
  props.filterMap fun e =>
    if metaKeys.contains e.1 || classKeys.contains e.1 then none
    else ((Attribute.ofValue? e.1 e.2).map d.writeAttribute).filter (· != "")

def contentAttribute (d : Dialect) (content : Json) : Option String :=
  match d.contentBinding, bindingExpression content with
  | some write, some expression => some (write expression)
  | _, _ => none

def attributes (d : Dialect) (r : Record) (styleClass : Option String) : List String :=
  (d.classAttribute styleClass (staticClasses r.props)).toList ++ d.propAttributes r.props
    ++ (d.contentAttribute r.content).toList

def content (d : Dialect) (value : Json) : String :=
  match bindingExpression value with
  | some expression => d.textBinding expression
  | none => d.text value.display

def opening (d : Dialect) (r : Record) (styleClass : Option String) : String :=
  "<" ++ d.tagName r ++ concat ((d.attributes r styleClass).map fun a => " " ++ a)

def leaf (d : Dialect) (r : Record) (styleClass : Option String) : String :=
  let tag := d.tagName r
  let opening := d.opening r styleClass
  if !r.content.isNull then opening ++ ">" ++ d.content r.content ++ "</" ++ tag ++ ">"
  else if voidElements.contains (lower tag) then opening ++ d.voidClose
  else if d.selfClosing then opening ++ " />"
  else opening ++ "></" ++ tag ++ ">"

def styleClassOf (classes : Table String) (r : Record) : Option String :=
  (classes.get? r.id).filter (· != "")

mutual

/-- The lines of a tree; children win over content. -/
def lines (d : Dialect) (unit : String) (classes : Table String) (margin : String) :
    Tree → List String
  | .node r [] => [margin ++ d.leaf r (styleClassOf classes r)]
  | .node r (c :: cs) =>
    (margin ++ d.opening r (styleClassOf classes r) ++ ">")
      :: linesOf d unit classes (margin ++ unit) (c :: cs)
      ++ [margin ++ "</" ++ d.tagName r ++ ">"]

def linesOf (d : Dialect) (unit : String) (classes : Table String) (margin : String) :
    List Tree → List String
  | [] => []
  | t :: rest => lines d unit classes margin t ++ linesOf d unit classes margin rest

end

def render (d : Dialect) (unit : String) (classes : Table String) (t : Tree) : String :=
  join "\n" (d.lines unit classes "" t)

end Dialect

end ViewWriter.Markup
