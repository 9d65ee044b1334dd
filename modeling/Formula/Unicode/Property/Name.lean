import Formula.Unicode.Property.Casing
import Formula.Unicode.Property.Control
import Formula.Unicode.Property.Emoji
import Formula.Unicode.Property.Grapheme
import Formula.Unicode.Property.Ideograph
import Formula.Unicode.Property.Identifier
import Formula.Unicode.Property.Symbol

/-! The names of properties. -/

namespace Formula.Unicode.Property

/-- Short and long names, in small letters and without separators. -/
def byName : List (String × CharSet) :=
  [("lower", lowercase), ("lowercase", lowercase), ("upper", uppercase), ("uppercase", uppercase),
    ("cased", cased), ("alpha", alphabetic), ("alphabetic", alphabetic), ("ci", caseIgnorable),
    ("caseignorable", caseIgnorable), ("cwl", changesWhenLowercased),
    ("changeswhenlowercased", changesWhenLowercased), ("cwu", changesWhenUppercased),
    ("changeswhenuppercased", changesWhenUppercased), ("cwt", changesWhenTitlecased),
    ("changeswhentitlecased", changesWhenTitlecased), ("cwcf", changesWhenCasefolded),
    ("changeswhencasefolded", changesWhenCasefolded), ("cwcm", changesWhenCasemapped),
    ("changeswhencasemapped", changesWhenCasemapped), ("olower", otherLowercase),
    ("otherlowercase", otherLowercase), ("oupper", otherUppercase),
    ("otheruppercase", otherUppercase), ("oalpha", otherAlphabetic),
    ("otheralphabetic", otherAlphabetic), ("wspace", whiteSpace), ("whitespace", whiteSpace),
    ("space", whiteSpace), ("joinc", joinControl), ("joincontrol", joinControl),
    ("bidic", bidiControl), ("bidicontrol", bidiControl), ("vs", variationSelector),
    ("variationselector", variationSelector), ("pcm", prependedConcatenationMark),
    ("prependedconcatenationmark", prependedConcatenationMark), ("odi", otherDefaultIgnorable),
    ("otherdefaultignorablecodepoint", otherDefaultIgnorable), ("di", defaultIgnorable),
    ("defaultignorablecodepoint", defaultIgnorable), ("dep", deprecated),
    ("deprecated", deprecated), ("nchar", noncharacter), ("noncharactercodepoint", noncharacter),
    ("ahex", asciiHexDigit), ("asciihexdigit", asciiHexDigit), ("hex", hexDigit),
    ("hexdigit", hexDigit), ("dash", dash), ("hyphen", hyphen), ("qmark", quotationMark),
    ("quotationmark", quotationMark), ("sterm", sentenceTerminal),
    ("sentenceterminal", sentenceTerminal), ("term", terminalPunctuation),
    ("terminalpunctuation", terminalPunctuation), ("omath", otherMath), ("othermath", otherMath),
    ("math", math), ("patsyn", patternSyntax), ("patternsyntax", patternSyntax),
    ("patws", patternWhiteSpace), ("patternwhitespace", patternWhiteSpace), ("oids", otherIdStart),
    ("otheridstart", otherIdStart), ("oidc", otherIdContinue),
    ("otheridcontinue", otherIdContinue), ("ids", idStart), ("idstart", idStart),
    ("idc", idContinue), ("idcontinue", idContinue), ("xids", xidStart), ("xidstart", xidStart),
    ("xidc", xidContinue), ("xidcontinue", xidContinue), ("idcompatmathstart", idCompatMathStart),
    ("idcompatmathcontinue", idCompatMathContinue), ("ri", regionalIndicator),
    ("regionalindicator", regionalIndicator), ("emoji", emoji), ("epres", emojiPresentation),
    ("emojipresentation", emojiPresentation), ("emod", emojiModifier),
    ("emojimodifier", emojiModifier), ("ebase", emojiModifierBase),
    ("emojimodifierbase", emojiModifierBase), ("ecomp", emojiComponent),
    ("emojicomponent", emojiComponent), ("extpict", extendedPictographic),
    ("extendedpictographic", extendedPictographic), ("ideo", ideographic),
    ("ideographic", ideographic), ("uideo", unifiedIdeograph),
    ("unifiedideograph", unifiedIdeograph), ("radical", radical), ("idsu", idsUnaryOperator),
    ("idsunaryoperator", idsUnaryOperator), ("idsb", idsBinaryOperator),
    ("idsbinaryoperator", idsBinaryOperator), ("idst", idsTrinaryOperator),
    ("idstrinaryoperator", idsTrinaryOperator), ("ogrext", otherGraphemeExtend),
    ("othergraphemeextend", otherGraphemeExtend), ("grext", graphemeExtend),
    ("graphemeextend", graphemeExtend), ("grbase", graphemeBase), ("graphemebase", graphemeBase),
    ("grlink", graphemeLink), ("graphemelink", graphemeLink), ("mcm", modifierCombiningMark),
    ("modifiercombiningmark", modifierCombiningMark), ("loe", logicalOrderException),
    ("logicalorderexception", logicalOrderException), ("sd", softDotted),
    ("softdotted", softDotted), ("dia", diacritic), ("diacritic", diacritic), ("ext", extender),
    ("extender", extender)]

end Formula.Unicode.Property
