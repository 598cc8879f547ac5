set_option autoImplicit false

namespace Groundwork.Yaml

inductive Fault where
  | forbiddenCharacter (c : Char)
  | badDirective
  | badAnchor
  | badTag
  | badBlockHeader
  | tabAsIndentation
  | unclosedQuote
  | markerInQuote
  | badEscape
  | badStart (c : Char)
  | misplacedIndicator (c : Char)
  | keyWithoutValue
  | unexpectedToken
  | unknownAlias (name : String)
  | tooDeep
  | tooManyAliases
  | duplicateKey
  | badScalar (tag text : String)
  | integerTooLarge (text : String)
  | secondDocument
deriving DecidableEq

def Fault.message : Fault → String
  | .forbiddenCharacter _ => "control characters are not allowed"
  | .badDirective => "malformed directive"
  | .badAnchor => "malformed anchor or alias"
  | .badTag => "malformed tag"
  | .badBlockHeader => "malformed header of a block scalar"
  | .tabAsIndentation => "tab character used as indentation"
  | .unclosedQuote => "unclosed quoted scalar"
  | .markerInQuote => "document marker inside a quoted scalar"
  | .badEscape => "unknown escape sequence"
  | .badStart c => "no token starts with " ++ String.singleton c
  | .misplacedIndicator c => "misplaced indicator " ++ String.singleton c
  | .keyWithoutValue => "key without a value indicator"
  | .unexpectedToken => "unexpected token"
  | .unknownAlias name => "unknown anchor " ++ name
  | .tooDeep => "recursion limit exceeded"
  | .tooManyAliases => "repetition limit exceeded"
  | .duplicateKey => "duplicate entry"
  | .badScalar tag text => "invalid value for " ++ tag ++ ": " ++ text
  | .integerTooLarge text => "integer out of range: " ++ text
  | .secondDocument => "more than one document"

end Groundwork.Yaml
