/-!
The phrases of Go's grammar.

A phrase is what several tokens form together. Some phrases are only steps on the way: they hold a
choice or a run of like parts and do not show in the outline of a source.
-/

namespace ImportGroups.Source

inductive Phrase where
  | sourceFile | packageClause | importDeclaration | importSpec | dotName | importSpecList
  | declaration | constDeclaration | constSpec | varDeclaration | varSpec | varSpecList
  | functionDeclaration | methodDeclaration | typeParameterList | typeParameter | parameterList
  | parameter | variadicParameter | typeAlias | typeDeclaration | typeSpec | expressionList
  | parenthesizedType | simpleType | genericType | typeArguments | pointerType | arrayType
  | openArrayType | sliceType | structType | negatedType | fieldList | field | interfaceType
  | interfaceMethod | typeElement | mapType | channelType | functionType | block | statementList
  | statement | emptyStatement | simpleStatement | expressionStatement | sendStatement
  | receiveStatement | incrementStatement | decrementStatement | assignment | shortVariables
  | labeledStatement | bareLabel | fallthroughStatement | breakStatement | continueStatement
  | gotoStatement | returnStatement | goStatement | deferStatement | ifStatement | forStatement
  | forClause | rangeClause | switchStatement | switchCase | defaultCase | typeSwitch
  | typeSwitchHead | typeCase | selectStatement | communicationCase | expression
  | parenthesizedExpression | call | variadicArgument | typedArguments | arguments | selector
  | indexing | slicing | typeAssertion | conversion | instantiation | compositeLiteral
  | literalValue | literalElement | keyedElement | functionLiteral | unaryExpression
  | binaryExpression | qualifiedType | rawString | string
  | fileItems | moreImportSpecs | constEntries | moreConstNames | moreNames | varEntries
  | moreTypeParameters | moreParameters | typeEntries | moreExpressions | moreTypeArguments
  | moreFields | moreFieldNames | moreElements | moreUnion | moreStatements | switchCases
  | typeCases | moreTypes | communicationCases | moreArguments | moreLiteralElements
  | stringPieces
  deriving DecidableEq, Repr, Inhabited

namespace Phrase

def index (p : Phrase) : Nat := p.ctorIdx

def isVisible : Phrase → Bool
  | declaration | simpleType | statement | simpleStatement | typeSwitchHead | expression => false
  | p => p.index < fileItems.index

end Phrase

/-- A way to form a phrase from parts. Of two readings of one text, the one with the higher rank is
kept. -/
structure Rule where
  phrase : Phrase
  parts : Nat
  rank : Int := 0
  deriving DecidableEq, Repr, Inhabited

end ImportGroups.Source
