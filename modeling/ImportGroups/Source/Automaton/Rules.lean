import ImportGroups.Source.Phrase
import ImportGroups.Source.Symbol

/-!
The rules by which the automaton forms phrases, and the sets of symbols before which it does.
-/

namespace ImportGroups.Source.Automaton

def rules : Array Rule := #[
  ⟨.sourceFile, 0, 0⟩, ⟨.sourceFile, 1, 0⟩, ⟨.sourceFile, 2, 0⟩, ⟨.packageClause, 2, 0⟩,
  ⟨.importDeclaration, 2, 0⟩, ⟨.importSpec, 1, 0⟩, ⟨.importSpec, 2, 0⟩, ⟨.dotName, 1, 0⟩,
  ⟨.importSpecList, 2, 0⟩, ⟨.importSpecList, 3, 0⟩, ⟨.importSpecList, 4, 0⟩,
  ⟨.importSpecList, 5, 0⟩, ⟨.constDeclaration, 2, 0⟩, ⟨.constDeclaration, 3, 0⟩,
  ⟨.constDeclaration, 4, 0⟩, ⟨.constSpec, 1, 0⟩, ⟨.constSpec, 2, 0⟩, ⟨.constSpec, 3, 0⟩,
  ⟨.constSpec, 4, 0⟩, ⟨.constSpec, 5, 0⟩, ⟨.varDeclaration, 2, 0⟩, ⟨.varSpec, 2, 0⟩,
  ⟨.varSpec, 3, 0⟩, ⟨.varSpec, 4, 0⟩, ⟨.varSpec, 5, 0⟩, ⟨.varSpecList, 2, 0⟩, ⟨.varSpecList, 3, 0⟩,
  ⟨.functionDeclaration, 3, 0⟩, ⟨.functionDeclaration, 4, 0⟩, ⟨.functionDeclaration, 5, 0⟩,
  ⟨.functionDeclaration, 6, 0⟩, ⟨.methodDeclaration, 4, 0⟩, ⟨.methodDeclaration, 5, 0⟩,
  ⟨.methodDeclaration, 6, 0⟩, ⟨.typeParameterList, 3, 0⟩, ⟨.typeParameterList, 4, 0⟩,
  ⟨.typeParameterList, 5, 0⟩, ⟨.typeParameter, 2, 0⟩, ⟨.typeParameter, 3, 0⟩,
  ⟨.parameterList, 2, 0⟩, ⟨.parameterList, 3, 0⟩, ⟨.parameterList, 4, 0⟩, ⟨.parameterList, 5, 0⟩,
  ⟨.parameter, 1, 0⟩, ⟨.parameter, 2, 0⟩, ⟨.parameter, 3, 0⟩, ⟨.variadicParameter, 2, 0⟩,
  ⟨.variadicParameter, 3, 0⟩, ⟨.typeAlias, 3, 0⟩, ⟨.typeAlias, 4, 0⟩, ⟨.typeDeclaration, 2, 0⟩,
  ⟨.typeDeclaration, 3, 0⟩, ⟨.typeDeclaration, 4, 0⟩, ⟨.typeSpec, 2, 0⟩, ⟨.typeSpec, 3, 0⟩,
  ⟨.expressionList, 1, 0⟩, ⟨.expressionList, 2, 0⟩, ⟨.parenthesizedType, 3, 0⟩,
  ⟨.simpleType, 1, -1⟩, ⟨.simpleType, 1, 0⟩, ⟨.genericType, 2, 1⟩, ⟨.typeArguments, 3, 2⟩,
  ⟨.typeArguments, 4, 2⟩, ⟨.typeArguments, 5, 2⟩, ⟨.pointerType, 2, 0⟩, ⟨.arrayType, 4, 0⟩,
  ⟨.openArrayType, 4, 0⟩, ⟨.sliceType, 3, 0⟩, ⟨.structType, 2, 0⟩, ⟨.negatedType, 2, 0⟩,
  ⟨.fieldList, 2, 0⟩, ⟨.fieldList, 3, 0⟩, ⟨.fieldList, 4, 0⟩, ⟨.fieldList, 5, 0⟩, ⟨.field, 1, 0⟩,
  ⟨.field, 2, 0⟩, ⟨.field, 3, 0⟩, ⟨.field, 4, 0⟩, ⟨.interfaceType, 3, 0⟩, ⟨.interfaceType, 4, 0⟩,
  ⟨.interfaceType, 5, 0⟩, ⟨.interfaceType, 6, 0⟩, ⟨.interfaceMethod, 2, 0⟩,
  ⟨.interfaceMethod, 3, 0⟩, ⟨.typeElement, 1, 0⟩, ⟨.typeElement, 2, 0⟩, ⟨.mapType, 5, 0⟩,
  ⟨.channelType, 2, 0⟩, ⟨.channelType, 3, 0⟩, ⟨.functionType, 2, 0⟩, ⟨.functionType, 3, 0⟩,
  ⟨.block, 2, 0⟩, ⟨.block, 3, 0⟩, ⟨.statementList, 1, 0⟩, ⟨.statementList, 2, 0⟩,
  ⟨.statementList, 3, 0⟩, ⟨.statementList, 4, 0⟩, ⟨.statement, 1, 0⟩, ⟨.emptyStatement, 1, 0⟩,
  ⟨.simpleStatement, 1, 0⟩, ⟨.expressionStatement, 1, 0⟩, ⟨.sendStatement, 3, 0⟩,
  ⟨.receiveStatement, 1, 0⟩, ⟨.receiveStatement, 3, 0⟩, ⟨.incrementStatement, 2, 0⟩,
  ⟨.decrementStatement, 2, 0⟩, ⟨.assignment, 3, 0⟩, ⟨.shortVariables, 3, 0⟩,
  ⟨.labeledStatement, 3, 0⟩, ⟨.bareLabel, 2, 0⟩, ⟨.fallthroughStatement, 1, 0⟩,
  ⟨.breakStatement, 1, 0⟩, ⟨.breakStatement, 2, 0⟩, ⟨.continueStatement, 1, 0⟩,
  ⟨.continueStatement, 2, 0⟩, ⟨.gotoStatement, 2, 0⟩, ⟨.returnStatement, 1, 0⟩,
  ⟨.returnStatement, 2, 0⟩, ⟨.goStatement, 2, 0⟩, ⟨.deferStatement, 2, 0⟩, ⟨.ifStatement, 3, 0⟩,
  ⟨.ifStatement, 5, 0⟩, ⟨.ifStatement, 7, 0⟩, ⟨.forStatement, 2, 0⟩, ⟨.forStatement, 3, 0⟩,
  ⟨.forClause, 2, 0⟩, ⟨.forClause, 3, 0⟩, ⟨.forClause, 4, 0⟩, ⟨.forClause, 5, 0⟩,
  ⟨.rangeClause, 2, 0⟩, ⟨.rangeClause, 4, 0⟩, ⟨.switchStatement, 3, 0⟩, ⟨.switchStatement, 4, 0⟩,
  ⟨.switchStatement, 5, 0⟩, ⟨.switchStatement, 6, 0⟩, ⟨.switchStatement, 7, 0⟩, ⟨.switchCase, 3, 0⟩,
  ⟨.switchCase, 4, 0⟩, ⟨.defaultCase, 2, 0⟩, ⟨.defaultCase, 3, 0⟩, ⟨.typeSwitch, 4, 0⟩,
  ⟨.typeSwitch, 5, 0⟩, ⟨.typeSwitchHead, 5, 0⟩, ⟨.typeSwitchHead, 7, 0⟩, ⟨.typeSwitchHead, 9, 0⟩,
  ⟨.typeCase, 3, 0⟩, ⟨.typeCase, 4, 0⟩, ⟨.typeCase, 5, 0⟩, ⟨.selectStatement, 3, 0⟩,
  ⟨.selectStatement, 4, 0⟩, ⟨.communicationCase, 3, 0⟩, ⟨.communicationCase, 4, 0⟩,
  ⟨.expression, 1, 0⟩, ⟨.parenthesizedExpression, 3, 0⟩, ⟨.call, 2, 0⟩, ⟨.call, 3, 0⟩,
  ⟨.variadicArgument, 2, 0⟩, ⟨.typedArguments, 2, 0⟩, ⟨.typedArguments, 3, 0⟩,
  ⟨.typedArguments, 4, 0⟩, ⟨.typedArguments, 5, 0⟩, ⟨.arguments, 2, 0⟩, ⟨.arguments, 3, 0⟩,
  ⟨.arguments, 4, 0⟩, ⟨.arguments, 5, 0⟩, ⟨.selector, 3, 0⟩, ⟨.indexing, 4, 0⟩, ⟨.slicing, 4, 0⟩,
  ⟨.slicing, 5, 0⟩, ⟨.slicing, 6, 0⟩, ⟨.slicing, 7, 0⟩, ⟨.slicing, 8, 0⟩, ⟨.typeAssertion, 5, 0⟩,
  ⟨.conversion, 4, -1⟩, ⟨.conversion, 5, -1⟩, ⟨.instantiation, 4, 0⟩, ⟨.instantiation, 5, 0⟩,
  ⟨.instantiation, 6, 0⟩, ⟨.compositeLiteral, 2, 0⟩, ⟨.literalValue, 2, 0⟩, ⟨.literalValue, 3, 0⟩,
  ⟨.literalValue, 4, 0⟩, ⟨.literalValue, 5, 0⟩, ⟨.literalElement, 1, 0⟩, ⟨.keyedElement, 3, 0⟩,
  ⟨.functionLiteral, 3, 0⟩, ⟨.functionLiteral, 4, 0⟩, ⟨.unaryExpression, 2, 0⟩,
  ⟨.binaryExpression, 3, 0⟩, ⟨.qualifiedType, 3, 0⟩, ⟨.rawString, 3, 0⟩, ⟨.string, 2, 0⟩,
  ⟨.string, 3, 0⟩, ⟨.fileItems, 2, 0⟩, ⟨.moreImportSpecs, 2, 0⟩, ⟨.constEntries, 2, 0⟩,
  ⟨.moreConstNames, 2, 0⟩, ⟨.moreNames, 2, 0⟩, ⟨.varEntries, 2, 0⟩, ⟨.moreTypeParameters, 2, 0⟩,
  ⟨.moreParameters, 2, 0⟩, ⟨.typeEntries, 1, 0⟩, ⟨.typeEntries, 2, 0⟩, ⟨.moreExpressions, 2, 0⟩,
  ⟨.moreTypeArguments, 2, 0⟩, ⟨.moreFields, 2, 0⟩, ⟨.moreFieldNames, 2, 0⟩, ⟨.moreElements, 2, 0⟩,
  ⟨.moreUnion, 2, 0⟩, ⟨.moreStatements, 2, 0⟩, ⟨.switchCases, 2, 0⟩, ⟨.typeCases, 2, 0⟩,
  ⟨.moreTypes, 2, 0⟩, ⟨.communicationCases, 2, 0⟩, ⟨.moreArguments, 2, 0⟩,
  ⟨.moreLiteralElements, 2, 0⟩, ⟨.stringPieces, 2, 0⟩]

def symbolSets : Array SymbolSet := #[
  ⟨0x1⟩, ⟨0xfffec6000fffe511329c⟩, ⟨0x1d⟩, ⟨0x500000000000000000000⟩, ⟨0x3fc50007f95fe0003af9ca6b⟩,
  ⟨0x10200⟩, ⟨0x60000000100001c⟩, ⟨0x41c⟩, ⟨0x10600⟩, ⟨0xfffec000100045133688⟩,
  ⟨0xfffec000100045973688⟩, ⟨0xfffec6000fffe511369c⟩, ⟨0x3800000000000000000000⟩, ⟨0x100004833600⟩,
  ⟨0x1c⟩, ⟨0x600000001000000⟩, ⟨0x800000⟩, ⟨0xfffec000000004130280⟩, ⟨0xffe40002000⟩,
  ⟨0xfffec6000fffe510301c⟩, ⟨0xff02c6000fffe500301c⟩, ⟨0xff0006000fffe100301c⟩,
  ⟨0xc00006000fffe100301c⟩, ⟨0x800006000fffe100301c⟩, ⟨0xfffec6000fffe511309c⟩,
  ⟨0xfffec6200fffe511329c⟩, ⟨0x8⟩, ⟨0xfffec0000fffe4913288⟩, ⟨0xfffec0000fffe4903008⟩,
  ⟨0xff02c0000fffe4803008⟩, ⟨0xff0000000fffe0803008⟩, ⟨0xc00000000fffe0803008⟩,
  ⟨0x800000000fffe0803008⟩, ⟨0xfffec0000fffe4913088⟩, ⟨0xfffec0000ffe44113280⟩, ⟨0xffe40003000⟩,
  ⟨0xfffec0000ffe44103000⟩, ⟨0xff02c0000ffe44003000⟩, ⟨0xff0000000ffe40003000⟩,
  ⟨0xc00000000ffe40003000⟩, ⟨0x800000000ffe40003000⟩, ⟨0xfffec0000ffe44113080⟩, ⟨0x100001c⟩,
  ⟨0x50000060000000580241c⟩, ⟨0xfffec000100045963408⟩, ⟨0xfffec000100045973488⟩,
  ⟨0xfffec60000000511129c⟩, ⟨0x100004823400⟩, ⟨0x60000000100101c⟩, ⟨0xfffec60000000510101c⟩,
  ⟨0xff02c000100045023008⟩, ⟨0xff000000100041023008⟩, ⟨0xc0000000100041023008⟩,
  ⟨0x80000000100041023008⟩, ⟨0xff02c60000000500101c⟩, ⟨0xff00060000000100101c⟩,
  ⟨0xc000060000000100101c⟩, ⟨0x8000060000000100101c⟩, ⟨0x4021400⟩, ⟨0x1400⟩, ⟨0x40002000⟩,
  ⟨0x100000000000⟩, ⟨0xfffec60000000511109c⟩, ⟨0xfffec000100064113280⟩, ⟨0x100040003008⟩,
  ⟨0x80001d⟩, ⟨0xfffec000100064103000⟩, ⟨0xff02c000100064003000⟩, ⟨0xff000000100060003000⟩,
  ⟨0xc0000000100060003000⟩, ⟨0x80000000100060003000⟩, ⟨0x40000000⟩, ⟨0x100000000008⟩,
  ⟨0xfffec000000004151680⟩, ⟨0xfffec000100064113080⟩, ⟨0x4031200⟩, ⟨0xfffec000100004130280⟩,
  ⟨0x100001001000⟩, ⟨0xff02c000000004041400⟩, ⟨0xff000000000000041400⟩, ⟨0xc0000000000000041400⟩,
  ⟨0x80000000000000041400⟩, ⟨0xfffec000000044911280⟩, ⟨0xff02c000000044801000⟩,
  ⟨0xff000000000040801000⟩, ⟨0xc0000000000040801000⟩, ⟨0x80000000000040801000⟩, ⟨0x801000⟩,
  ⟨0x50000060000003ff1a61e⟩, ⟨0x60000003b71b21e⟩, ⟨0x10003ef3b602⟩, ⟨0x3af1821f⟩,
  ⟨0x50000060000000580241e⟩, ⟨0x50000060000000581241e⟩, ⟨0x3a71b202⟩, ⟨0x3a719202⟩, ⟨0x3a71a202⟩,
  ⟨0x500001c⟩, ⟨0x4031600⟩, ⟨0x60000000100041e⟩, ⟨0x81001d⟩, ⟨0x810000⟩, ⟨0x21000⟩,
  ⟨0x100040002008⟩, ⟨0x4021600⟩, ⟨0x402⟩, ⟨0x100000021000⟩, ⟨0x4021000⟩, ⟨0x1001000⟩, ⟨0x200⟩,
  ⟨0x800008⟩]

/-- For every symbol, in the order of their numbers, the symbols that some text could be read as
instead. -/
def rivals : Array SymbolSet := #[
  ⟨0x0⟩, ⟨0x3c0a00003fffe0001a28c964⟩, ⟨0xa00000000000000000000⟩, ⟨0xa00000000000000000004⟩,
  ⟨0xa00000000000000000004⟩, ⟨0xa00000000000000000006⟩, ⟨0xa00000000000000000006⟩,
  ⟨0x18a00000000000000040004⟩, ⟨0xa00000000000000000006⟩, ⟨0xa00000000000000000004⟩,
  ⟨0xa00000000000000000004⟩, ⟨0xa00000000000000000006⟩, ⟨0xa00000000000000000004⟩,
  ⟨0xa01000000000000000004⟩, ⟨0xa00000000000000000006⟩, ⟨0xa00000000000000000006⟩,
  ⟨0xa00000000000000000004⟩, ⟨0xa00000000000000000004⟩, ⟨0xa00000000000000000004⟩,
  ⟨0xa00000000000000000006⟩, ⟨0xa00000000000200000004⟩, ⟨0xa00000000000000000006⟩,
  ⟨0xa00000000000000000004⟩, ⟨0xa00000000000000000004⟩, ⟨0xa00000000000000000004⟩,
  ⟨0xa00000000000000000006⟩, ⟨0xa80000000040000000004⟩, ⟨0xa00000000000000000006⟩,
  ⟨0xa00000000000000000006⟩, ⟨0xa00000000000000000004⟩, ⟨0xa00000000000000000004⟩,
  ⟨0xa00000000000000000004⟩, ⟨0xa00000000000000000004⟩, ⟨0xa00000000000000000004⟩,
  ⟨0xa00000000000000000004⟩, ⟨0xa00000000000000000004⟩, ⟨0xa00000000000000000004⟩,
  ⟨0xa00000000000000000004⟩, ⟨0xa00000000000000000004⟩, ⟨0xa00000000000000000004⟩,
  ⟨0xa00000000000000000004⟩, ⟨0xa00000000000000000004⟩, ⟨0xa00000000000000000004⟩,
  ⟨0xa00000000000000000004⟩, ⟨0xa00000000000040000004⟩, ⟨0xa00000000000000000006⟩,
  ⟨0xa00000000000000000006⟩, ⟨0xa00000000000000000006⟩, ⟨0xa00000000000000000006⟩,
  ⟨0xa00000000000000000006⟩, ⟨0xa00000001000000000006⟩, ⟨0xa00000000000000000006⟩,
  ⟨0xa00000000000000000006⟩, ⟨0xa00000000000000000006⟩, ⟨0xa00000000000000000006⟩,
  ⟨0xa00000000000000000006⟩, ⟨0xa00000000000000000006⟩, ⟨0xa00000000000000000006⟩,
  ⟨0xa00000000000000000006⟩, ⟨0xa00000000000000000006⟩, ⟨0xa00000000000000000006⟩,
  ⟨0xa00000000000000000006⟩, ⟨0xa00000000010080000004⟩, ⟨0xa00000000020100000004⟩,
  ⟨0xa02000000000000000004⟩, ⟨0xa00000000080000000004⟩, ⟨0xa4080000000c000000004⟩,
  ⟨0x400a00000000000400000004⟩, ⟨0xa00000000000800000004⟩, ⟨0xa00000000001000000004⟩,
  ⟨0xa00000000002000000004⟩, ⟨0xa00000000008000000004⟩, ⟨0xa00000000000000000004⟩,
  ⟨0xa00000000000000000004⟩, ⟨0xa08200000001020000004⟩, ⟨0xa00000000000000000004⟩,
  ⟨0xa20400000002000000004⟩, ⟨0xa00000000000000000004⟩, ⟨0xa00000000000000000004⟩,
  ⟨0xa00000000000000000004⟩, ⟨0xa00000000000000000004⟩, ⟨0x800000000000000000004⟩,
  ⟨0x1a00000000000000000004⟩, ⟨0x200000000000000000000⟩, ⟨0x200000000000000000000⟩,
  ⟨0x200000000000000000000⟩, ⟨0x18a00000000000000000004⟩, ⟨0x10a00000000000000000004⟩,
  ⟨0xa00000000000000000004⟩, ⟨0xa00000000000000000004⟩, ⟨0xa00000000000000000006⟩,
  ⟨0xa00000000000000000006⟩, ⟨0xa00000000000000000006⟩, ⟨0xa00000000000000000006⟩,
  ⟨0xa00000000000000000004⟩]

end ImportGroups.Source.Automaton
