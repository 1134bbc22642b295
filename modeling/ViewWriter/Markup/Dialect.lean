import ViewWriter.Framework
import ViewWriter.Markup.Attribute
import ViewWriter.Name.Case
import ViewWriter.Schema.Tree

/-!
How each framework spells elements, attributes, bindings, events and text.
-/

namespace ViewWriter.Markup

open ViewWriter.Text ViewWriter.Schema

structure Dialect where
  /-- empty elements are closed in their opening tag -/
  selfClosing : Bool
  /-- what ends the tag of a void element -/
  voidClose : String
  tagName : Record → String
  attributeName : String → String
  number : String → Number → String
  /-- the class attribute of a styled node, where styles are modules -/
  moduleClass : Option (String → List String → String)
  binding : String → String → String
  event : String → String → String
  text : String → String
  textBinding : String → String
  /-- the attribute that carries a bound content, where text cannot -/
  contentBinding : Option (String → String)

namespace Dialect

/-- An attribute whose value stands between double quotes. -/
def quotedPair (name value : String) : String := name ++ "=\"" ++ value ++ "\""

def staticAttribute (d : Dialect) (name value : String) : String :=
  quotedPair (d.attributeName name) (escapeQuoted value)

/-- A class name as a member of a table of classes. -/
def classMember (table name : String) : String :=
  if isIdentifier name.toList then table ++ "." ++ name else table ++ "['" ++ name ++ "']"

def inBraces (s : String) : String := "\x7b" ++ s ++ "\x7d"

/-- Attributes that component markup spells differently. -/
def componentAttributes : List (String × String) := [
  ("class", "className"), ("for", "htmlFor"), ("tabindex", "tabIndex"), ("readonly", "readOnly"),
  ("maxlength", "maxLength"), ("autocomplete", "autoComplete"), ("autofocus", "autoFocus"),
  ("colspan", "colSpan"), ("rowspan", "rowSpan"), ("contenteditable", "contentEditable"),
  ("crossorigin", "crossOrigin"), ("srcset", "srcSet")]

def reactName (name : String) : String := (componentAttributes.lookup name).getD name

def reactBinding (name expression : String) : String :=
  reactName name ++ "=" ++ inBraces expression

def reactModuleClass (styleClass : String) (others : List String) : String :=
  let member := classMember "styles" styleClass
  if others.isEmpty then "className=" ++ inBraces member
  else "className=" ++ inBraces ("`$" ++ inBraces member ++ " " ++ join " " others ++ "`")

def react (modules : Bool) : Dialect where
  selfClosing := true
  voidClose := " />"
  tagName r := r.type
  attributeName := reactName
  number name value := reactBinding name (value.writeWhole .plain)
  moduleClass := if modules then some reactModuleClass else none
  binding := reactBinding
  event name handler := "on" ++ name ++ "=" ++ inBraces handler
  text := escapeBraced
  textBinding := inBraces
  contentBinding := none

def vueBinding (name expression : String) : String :=
  quotedPair (":" ++ name) (escapeAttribute expression)

def vueModuleClass (styleClass : String) (others : List String) : String :=
  let member := classMember "$style" styleClass
  if others.isEmpty then vueBinding "class" member
  else vueBinding "class" ("[" ++ member ++ ", '" ++ join " " others ++ "']")

def inDoubleBraces (expression : String) : String := "\x7b\x7b " ++ expression ++ " \x7d\x7d"

def vue (modules : Bool) : Dialect where
  selfClosing := true
  voidClose := " />"
  tagName r := r.type
  attributeName := id
  number name value := vueBinding name (value.write .plain)
  moduleClass := if modules then some vueModuleClass else none
  binding := vueBinding
  event name handler := quotedPair ("@" ++ lower name) (escapeAttribute handler)
  text := escapeBraced
  textBinding := inDoubleBraces
  contentBinding := none

def angularBinding (name expression : String) : String :=
  quotedPair ("[" ++ name ++ "]") (escapeAttribute expression)

/-- A handler that is a name is called with the event. -/
def angularHandler (handler : String) : String :=
  if isIdentifier handler.toList then handler ++ "($event)" else handler

def angular (selectorPrefix : String) : Dialect where
  selfClosing := false
  voidClose := ">"
  tagName r := if r.isCustom then selectorPrefix ++ "-" ++ Name.kebab r.type else r.type
  attributeName := id
  number name value := angularBinding name (value.write .plain)
  moduleClass := none
  binding := angularBinding
  event name handler := quotedPair ("(" ++ lower name ++ ")") (escapeAttribute (angularHandler handler))
  text := escapeBraced
  textBinding := inDoubleBraces
  contentBinding := none

def bindingPrefix : String := "data-bind-"
def eventPrefix : String := "data-on-"

def htmlBinding (name expression : String) : String :=
  quotedPair (bindingPrefix ++ lower name) (escapeAttribute expression)

/-- Custom elements have a hyphen in their names. -/
def htmlTagName (r : Record) : String :=
  if r.isCustom then
    let kebab := Name.kebab r.type
    if kebab.toList.contains '-' then kebab else "x-" ++ kebab
  else r.type

def html : Dialect where
  selfClosing := false
  voidClose := ">"
  tagName := htmlTagName
  attributeName := id
  number name value := quotedPair name (escapeQuoted (value.write .source))
  moduleClass := none
  binding := htmlBinding
  event name handler := quotedPair (eventPrefix ++ lower name) (escapeAttribute handler)
  text := escapeContent
  textBinding _ := ""
  contentBinding := some (htmlBinding "text")

end Dialect

end ViewWriter.Markup
