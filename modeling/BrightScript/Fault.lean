/-!
# Faults

The numbered errors a script can run into, with their texts. Numbers are unique; not every number
belongs to a fault.
-/

namespace BrightScript

inductive Fault where
  | nextWithoutFor
  | badSyntax
  | returnedWithoutGosub
  | outOfData
  | badFunctionOrArrayParam
  | outOfMemory
  | missingLineNumber
  | indexOutOfBounds
  | redimensionArray
  | divideByZero
  | typeMismatch
  | outOfMemoryStringOp
  | stringTooLong
  | badBitShift
  | noContinue
  | outOfRange
  | executionTimeout
  | invalidFormatSpecifier
  | malformedThrow
  | userDefined
  | tooManyTasks
  | runNotSupported
  | continueForWithoutFor
  | continueWhileWithoutWhile
  | tryContainsLabel
  | evalDisabled
  | functionNotFound
  | nameShadowsBuiltin
  | varShadowsFunctionName
  | labelLimitExceeded
  | classNotFound
  | interfaceTooLarge
  | noInitializer
  | exitForWithoutFor
  | deprecated
  | badType
  | missingReturnType
  | returnWithoutValue
  | returnWithValue
  | typeMismatchForEachIndex
  | missingMainFunction
  | duplicateSub
  | limitExceeded
  | exitWhileWithoutWhile
  | tooManyVariables
  | tooManyConstants
  | functionNotExpected
  | unterminatedString
  | duplicateLabel
  | unterminatedBlock
  | badNext
  | endOfFile
  | cannotReadFile
  | lineNumberSequenceError
  | noLineNumber
  | ifWithoutEndIf
  | whileWithoutEndWhile
  | endWhileWithoutWhile
  | exceptionThrownOnStack
  | stackOverflow
  | notAFunction
  | unsupportedUnicode
  | valueReturn
  | badNumberOfIndexes
  | badTarget
  | missingReturnValue
  | uninitializedFunction
  | undimmedArray
  | nonNumericArrayIndex
  | uninitializedVariable
  | typelessOperation
  | dotOnNonObject
  | nonStaticInterfaceCall
  | notWaitable
  | notPrintable
  | returnValueIgnored
  | wrongNumberOfParams
  | tooManyParams
  | interfaceNotAMember
  | memberFunctionNotFound
  | roWrongNumberOfParams
  | objectClassNotFound
  | stop
  | breakIn
  | stackUnderflow
  | missingParenthesis
  | undefinedOperator
  | normalEnd
  | undefinedOpCode
  | internal
  | okay
  deriving DecidableEq, Repr, Inhabited

namespace Fault

def all : List Fault :=
  [nextWithoutFor, badSyntax, returnedWithoutGosub, outOfData, badFunctionOrArrayParam,
   outOfMemory, missingLineNumber, indexOutOfBounds, redimensionArray, divideByZero,
   typeMismatch, outOfMemoryStringOp, stringTooLong, badBitShift, noContinue, outOfRange,
   executionTimeout, invalidFormatSpecifier, malformedThrow, userDefined, tooManyTasks,
   runNotSupported, continueForWithoutFor, continueWhileWithoutWhile, tryContainsLabel,
   evalDisabled, functionNotFound, nameShadowsBuiltin, varShadowsFunctionName,
   labelLimitExceeded, classNotFound, interfaceTooLarge, noInitializer, exitForWithoutFor,
   deprecated, badType, missingReturnType, returnWithoutValue, returnWithValue,
   typeMismatchForEachIndex, missingMainFunction, duplicateSub, limitExceeded,
   exitWhileWithoutWhile, tooManyVariables, tooManyConstants, functionNotExpected,
   unterminatedString, duplicateLabel, unterminatedBlock, badNext, endOfFile, cannotReadFile,
   lineNumberSequenceError, noLineNumber, ifWithoutEndIf, whileWithoutEndWhile,
   endWhileWithoutWhile, exceptionThrownOnStack, stackOverflow, notAFunction, unsupportedUnicode,
   valueReturn, badNumberOfIndexes, badTarget, missingReturnValue, uninitializedFunction,
   undimmedArray, nonNumericArrayIndex, uninitializedVariable, typelessOperation, dotOnNonObject,
   nonStaticInterfaceCall, notWaitable, notPrintable, returnValueIgnored, wrongNumberOfParams,
   tooManyParams, interfaceNotAMember, memberFunctionNotFound, roWrongNumberOfParams,
   objectClassNotFound, stop, breakIn, stackUnderflow, missingParenthesis, undefinedOperator,
   normalEnd, undefinedOpCode, internal, okay]

/-- The number, the name and the text of a fault. -/
def entry : Fault → Int32 × String × String
  | nextWithoutFor => (0, "NextWithoutFor", "Next Without For.")
  | badSyntax => (2, "BadSyntax", "Syntax Error.")
  | returnedWithoutGosub => (4, "ReturnedWithoutGosub", "Return Without Gosub.")
  | outOfData => (6, "OutOfData", "Out of Data on READ.")
  | badFunctionOrArrayParam =>
    (8, "BadFunctionOrArrayParam",
      "Invalid parameter passed to function/array (e.g neg matrix dim or sqr root).")
  | outOfMemory => (12, "OutOfMemory", "Out Of Memory.")
  | missingLineNumber => (14, "MissingLineNumber", "Label/Line Not Found.")
  | indexOutOfBounds => (16, "IndexOutOfBounds", "Array subscript out of bounds.")
  | redimensionArray => (18, "RedimensionArray", "Attempted to redimension an array.")
  | divideByZero => (20, "DivideByZero", "Divide by Zero.")
  | typeMismatch => (24, "TypeMismatch", "Type Mismatch.")
  | outOfMemoryStringOp => (26, "OutOfMemoryStringOp", "Out of Memory when doing string operation.")
  | stringTooLong => (28, "StringTooLong", "String Too Long.")
  | badBitShift => (30, "BadBitShift", "Invalid Bitwise Shift.")
  | noContinue => (32, "NoContinue", "Continue Not Allowed.")
  | outOfRange => (34, "OutOfRange", "Constant Out Of Range")
  | executionTimeout => (35, "ExecutionTimeout", "Execution timeout")
  | invalidFormatSpecifier => (36, "InvalidFormatSpecifier", "Invalid Format Specifier")
  | malformedThrow => (38, "MalformedThrow", "Invalid argument to Throw")
  | userDefined => (40, "UserDefined", "User-specified exception")
  | tooManyTasks => (41, "TooManyTasks", "Too many task threads")
  | runNotSupported => (140, "RunNotSupported", "run() is unsupported.")
  | continueForWithoutFor => (141, "ContinueForWithoutFor", "Continue For is not inside a For loop")
  | continueWhileWithoutWhile =>
    (142, "ContinueWhileWithoutWhile", "Continue While is not inside a While")
  | tryContainsLabel => (143, "TryContainsLabel", "Labels are illegal inside a TRY clause.")
  | evalDisabled =>
    (144, "EvalDisabled", "eval() is deprecated. You must eliminate usage of eval().")
  | functionNotFound =>
    (145, "FunctionNotFound", "Function is not defined in component's namespace")
  | nameShadowsBuiltin =>
    (157, "NameShadowsBuiltin", "Syntax Error. Builtin function call expected.")
  | varShadowsFunctionName =>
    (160, "VarShadowsFunctionName",
      "Variable name cannot be the same as that of a declared function.")
  | labelLimitExceeded =>
    (161, "LabelLimitExceeded", "Too Many Labels. Internal Label table size exceeded.")
  | classNotFound => (162, "ClassNotFound", "Class Not Found.")
  | interfaceTooLarge =>
    (163, "InterfaceTooLarge", "Interface has too many functions for bytecode.")
  | noInitializer => (164, "NoInitializer", "Assignment initializer missing.")
  | exitForWithoutFor => (165, "ExitForWithoutFor", "Exit For is not inside a For loop.")
  | deprecated => (166, "Deprecated", "Statement type no longer supported.")
  | badType => (167, "BadType", "Type is Invalid.")
  | missingReturnType => (168, "MissingReturnType", "Function must have a return type.")
  | returnWithoutValue => (169, "ReturnWithoutValue", "Return must return a value.")
  | returnWithValue =>
    (170, "ReturnWithValue",
      "Return can not have a return-value if inside a Sub or Function with Void return type.")
  | typeMismatchForEachIndex =>
    (171, "TypeMismatchForEachIndex", "For-Each index variable must be 'dynamic' type.")
  | missingMainFunction => (172, "MissingMainFunction", "No Main() Found.")
  | duplicateSub => (173, "DuplicateSub", "SUB or FUNCTION defined twice.")
  | limitExceeded => (174, "LimitExceeded", "Internal limit size exceeded.")
  | exitWhileWithoutWhile => (175, "ExitWhileWithoutWhile", "Exit While is not inside a While.")
  | tooManyVariables => (176, "TooManyVariables", "Variable table size exceeded.")
  | tooManyConstants => (177, "TooManyConstants", "Constant table size exceeded.")
  | functionNotExpected => (178, "FunctionNotExpected", "Function not expected here.")
  | unterminatedString => (179, "UnterminatedString", "String missing ending quote.")
  | duplicateLabel => (180, "DuplicateLabel", "Label/LineNumber defined more than once.")
  | unterminatedBlock =>
    (181, "UnterminatedBlock",
      "A block (such as FOR/NEXT or IF/ENDIF) was not terminated correctly.")
  | badNext => (182, "BadNext", "Variable in NEXT does not match correct FOR.")
  | endOfFile => (183, "EndOfFile", "Unexpected End-Of-File.")
  | cannotReadFile => (185, "CannotReadFile", "Error loading file.")
  | lineNumberSequenceError =>
    (186, "LineNumberSequenceError", "Classic BASIC style line number is out of sequence.")
  | noLineNumber => (187, "NoLineNumber", "Line Number not found where expected.")
  | ifWithoutEndIf => (189, "IfWithoutEndIf", "ENDIF Missing.")
  | whileWithoutEndWhile =>
    (190, "WhileWithoutEndWhile", "While Statement is missing a matching EndWhile.")
  | endWhileWithoutWhile => (191, "EndWhileWithoutWhile", "EndWhile Without While.")
  | exceptionThrownOnStack =>
    (222, "ExceptionThrownOnStack", "UNEXPECTED INTERNAL (Exception on stack)")
  | stackOverflow => (223, "StackOverflow", "Stack overflow.")
  | notAFunction => (224, "NotAFunction", "Function Call Operator ( ) attempted on non-function.")
  | unsupportedUnicode => (225, "UnsupportedUnicode", "Error: Unicode not supported.")
  | valueReturn => (226, "ValueReturn", "Return from non-function.")
  | badNumberOfIndexes => (227, "BadNumberOfIndexes", "Invalid number of Array indexes.")
  | badTarget => (228, "BadLHS", "Invalid value for left-side of expression.")
  | missingReturnValue => (229, "MissingReturnValue", "Function does not have a required return.")
  | uninitializedFunction =>
    (230, "UninitializedFunction", "Use of a reference to a function/sub that is not initialized.")
  | undimmedArray => (231, "UndimmedArray", "Array operation attempted on variable not DIM'd.")
  | nonNumericArrayIndex =>
    (232, "NonNumericArrayIndex", "Attempt to use a non-numeric array index not allowed.")
  | uninitializedVariable => (233, "UninitializedVariable", "Use of uninitialized variable.")
  | typelessOperation => (235, "TypelessOperation", "Operation on UnTyped operand(s) attempted.")
  | dotOnNonObject =>
    (236, "DotOnNonObject",
      "'Dot' Operator attempted with invalid BrightScript Component or interface reference.")
  | nonStaticInterfaceCall =>
    (237, "NonStaticInterfaceCall",
      "Interface function calls from type rotINTERFACE must by static.")
  | notWaitable =>
    (238, "NotWaitable",
      "Tried to Wait on an BrightScript Component that does not have MessagePort interface.")
  | notPrintable => (239, "NotPrintable", "Non printable value.")
  | returnValueIgnored => (240, "ReturnValueIgnored", "Function returns a value that is ignored.")
  | wrongNumberOfParams => (241, "WrongNumberOfParams", "Wrong number of function parameters.")
  | tooManyParams =>
    (242, "TooManyParams", "Too many function parameters (internal limit exceeded).")
  | interfaceNotAMember =>
    (243, "InterfaceNotAMember", "Interface not a member of BrightScript Component")
  | memberFunctionNotFound =>
    (244, "MemberFunctionNotFound",
      "Member function not found in BrightScript Component or interface.")
  | roWrongNumberOfParams =>
    (245, "RoWrongNumberOfParams",
      "BrightScript Component function call does not have the correct number of parameters.")
  | objectClassNotFound => (246, "ObjectClassNotFound", "BrightScript Component Class not Found.")
  | stop => (247, "Stop", "STOP")
  | breakIn => (248, "Break", "BREAK")
  | stackUnderflow => (249, "StackUnderflow", "Stack Underflow.")
  | missingParenthesis => (250, "MissingParenthesis", "Missing Parentheses")
  | undefinedOperator => (251, "UndefinedOperator", "Unsupported expression operator.")
  | normalEnd => (252, "NormalEnd", "Normal End.")
  | undefinedOpCode => (253, "UndefinedOpCode", "Undefined Op Code.")
  | internal => (254, "Internal", "UNEXPECTED INTERNAL.")
  | okay => (255, "Okay", "OKAY")

def number (f : Fault) : Int32 :=
  f.entry.1

def name (f : Fault) : String :=
  f.entry.2.1

def message (f : Fault) : String :=
  f.entry.2.2

def ofNumber? (number : Int32) : Option Fault :=
  all.find? fun f => f.number == number

end Fault

end BrightScript
