/-! Command line arguments: at most one mode and at most one path, in any order. The
first argument that does not fit decides the error. -/
namespace LetScript.Shell

/-- What is done with a text. -/
inductive Mode where
  | lex
  | parse
  | eval
  deriving DecidableEq

namespace Mode

def name : Mode → String
  | lex => "lex"
  | parse => "parse"
  | eval => "eval"

def ofFlag? : String → Option Mode
  | "--lex" => some lex
  | "--parse" => some parse
  | _ => none

end Mode

structure Config where
  mode : Mode
  /-- Without a path, texts are read line by line from the input. -/
  path : Option String
  deriving DecidableEq

inductive ArgumentError where
  | unknownFlag (flag : String)
  /-- A second path. -/
  | unexpectedArgument (argument : String)
  /-- A second mode. -/
  | conflictingModes
  deriving DecidableEq

def ArgumentError.message : ArgumentError → String
  | unknownFlag flag => "unknown flag `" ++ flag ++ "`"
  | unexpectedArgument argument => "unexpected argument `" ++ argument ++ "`"
  | conflictingModes => "only one of `--lex` and `--parse` may be given"

/-- The arguments taken so far. -/
structure Arguments where
  mode : Option Mode
  path : Option String
  deriving DecidableEq

namespace Arguments

def empty : Arguments := ⟨none, none⟩

def looksLikeFlag (argument : String) : Bool :=
  ['-', '-'].isPrefixOf argument.toList

def add (given : Arguments) (argument : String) : Except ArgumentError Arguments :=
  match Mode.ofFlag? argument with
  | some mode =>
    if given.mode.isSome then .error .conflictingModes else .ok { given with mode := some mode }
  | none =>
    if looksLikeFlag argument then .error (.unknownFlag argument)
    else if given.path.isSome then .error (.unexpectedArgument argument)
    else .ok { given with path := some argument }

/-- Texts are evaluated where no mode is given. -/
def config (given : Arguments) : Config :=
  ⟨given.mode.getD .eval, given.path⟩

end Arguments

def Config.ofArguments (arguments : List String) : Except ArgumentError Config :=
  Arguments.config <$> arguments.foldlM Arguments.add .empty

end LetScript.Shell
