import TemplateSelectors.Location

/-!
# Expressions

What stands inside a tag: paths, literals and parenthesised calls, with their
positional arguments and their keyword arguments.  Every part keeps the white
space in front of it, so an expression prints as it was written.
-/

set_option autoImplicit false

namespace TemplateSelectors

/-- A path such as `foo`, `this.foo`, `@arg.bar`, `../x` or `data-test-foo`. -/
structure PathExpression where
  text : Text
  loc : SourceSpan
deriving DecidableEq, Repr, Inhabited

namespace PathExpression

def ofText (text : Text) : PathExpression :=
  ⟨text, .nowhere⟩

def isData (path : PathExpression) : Bool :=
  path.text.head? == some '@'

def isThis (path : PathExpression) : Bool :=
  path.text == ['t', 'h', 'i', 's'] || ['t', 'h', 'i', 's', '.'].isPrefixOf path.text ||
    ['t', 'h', 'i', 's', '/'].isPrefixOf path.text

/-- The part before the first separator, without the marks of an argument. -/
def head (path : PathExpression) : Text :=
  (path.text.dropWhile (· == '@')).takeWhile fun c => !(c == '.' || c == '/')

end PathExpression

inductive LiteralKind where
  | string
  | number
  | boolean
  | null
  | undefined
deriving DecidableEq, Repr, Inhabited

/-- A literal; `raw` keeps its quotes and escapes as written. -/
structure Literal where
  kind : LiteralKind
  raw : Text
  loc : SourceSpan
deriving DecidableEq, Repr, Inhabited

namespace Literal

def boolText : Bool → Text
  | true => ['t', 'r', 'u', 'e']
  | false => ['f', 'a', 'l', 's', 'e']

def ofBool (value : Bool) : Literal :=
  ⟨.boolean, boolText value, .nowhere⟩

def escapeQuotes : Text → Text
  | [] => []
  | c :: rest => if c = '"' then '\\' :: '"' :: escapeQuotes rest else c :: escapeQuotes rest

def ofText (value : Text) : Literal :=
  ⟨.string, '"' :: escapeQuotes value ++ ['"'], .nowhere⟩

def unescapeQuotes (quote : Char) : Text → Text
  | [] => []
  | [c] => [c]
  | c :: d :: rest =>
      if c = '\\' ∧ d = quote then quote :: unescapeQuotes quote rest
      else c :: unescapeQuotes quote (d :: rest)

/-- The text between the quotes of a string literal. -/
def stringValue? (literal : Literal) : Option Text :=
  match literal.kind, literal.raw with
  | .string, quote :: inner :: rest => some (unescapeQuotes quote (inner :: rest).dropLast)
  | _, _ => none

def boolValue? (literal : Literal) : Option Bool :=
  match literal.kind with
  | .boolean =>
      if literal.raw = boolText true then some true
      else if literal.raw = boolText false then some false
      else none
  | _ => none

end Literal

mutual

inductive Expression where
  | path (path : PathExpression)
  | literal (literal : Literal)
  | call (call : SubExpression)

structure SubExpression where
  leading : Text
  callee : Expression
  params : List Param
  hash : Hash
  trailing : Text
  loc : SourceSpan

/-- A positional argument with the white space in front of it. -/
structure Param where
  leading : Text
  value : Expression

/-- The keyword arguments of a call, from the first pair to the last; without
pairs, a point after the positional arguments. -/
structure Hash where
  pairs : List HashPair
  loc : SourceSpan

structure HashPair where
  leading : Text
  key : Text
  /-- The equals sign with the white space around it. -/
  separator : Text
  value : Expression
  loc : SourceSpan

end

instance : Inhabited Expression :=
  ⟨.path default⟩

mutual

def Expression.print : Expression → Text
  | .path p => p.text
  | .literal l => l.raw
  | .call c => c.print

def SubExpression.print : SubExpression → Text
  | ⟨leading, callee, params, hash, trailing, _⟩ =>
      '(' :: leading ++ callee.print ++ printParams params ++ hash.print ++ trailing ++ [')']

def Param.print : Param → Text
  | ⟨leading, value⟩ => leading ++ value.print

def Hash.print : Hash → Text
  | ⟨pairs, _⟩ => printPairs pairs

def HashPair.print : HashPair → Text
  | ⟨leading, key, separator, value, _⟩ => leading ++ key ++ separator ++ value.print

def printParams : List Param → Text
  | [] => []
  | param :: params => param.print ++ printParams params

def printPairs : List HashPair → Text
  | [] => []
  | pair :: pairs => pair.print ++ printPairs pairs

end

def Expression.loc : Expression → SourceSpan
  | .path p => p.loc
  | .literal l => l.loc
  | .call c => c.loc

/-- A positional argument that is set off by one space. -/
def Param.ofValue (value : Expression) : Param :=
  ⟨[' '], value⟩

def Param.loc (param : Param) : SourceSpan :=
  param.value.loc

def Hash.empty : Hash :=
  ⟨[], .nowhere⟩

def Hash.isEmpty (hash : Hash) : Bool :=
  hash.pairs.isEmpty

def Hash.get? (hash : Hash) (key : Text) : Option HashPair :=
  hash.pairs.find? (·.key == key)

/-- A pair that prints as ` key=value`. -/
def HashPair.ofValue (key : Text) (value : Expression) : HashPair :=
  ⟨[' '], key, ['='], value, .nowhere⟩

end TemplateSelectors
