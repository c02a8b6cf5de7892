import Concordance.Text

/-!
# Ways to fail

Every reason for which an operation of the library can end without its answer,
with the wording of each.
-/
namespace Concordance

/-- Why an operation ended without its answer. -/
inductive Failure where
  | unknownStemmer (name : Text)
  /-- A kind of index was asked for that there is not. -/
  | unknownBackend (name : Text)
  /-- A core was named that no index has. The name is given as it is shown. -/
  | unknownCore (shown : Text)
  /-- The parentheses of a query nest deeper than is allowed. The limit is given as it is shown. -/
  | tooDeep (shown : Text)
  | notLoaded
  /-- There is no index in memory format at the path. -/
  | noIndexAt (path : Text)
  | noDatabaseAt (path : Text)
  /-- There is a folder at the path, but no database in it. -/
  | notADatabase (path : Text)
  | noMetadataIn (path : Text)
  | noIndexNamed (name : Text)
  | noFile
  | notAFolder
  | isAFolder
  /-- There is a file where a folder is to be made. -/
  | fileInTheWay
  | nameTooLong
  /-- A name has a code point that no name may have. -/
  | notAName
  /-- A stored component is in another format than its metadata say. -/
  | notInText
  /-- A stored component is in another format than its metadata say. -/
  | notInBinary
  | noDatasetAt (path : Text)
  | undecodable
  | notJson
  | documentExists (doc : Int)
  | lengthRecorded (doc : Int)
  /-- A posting would have a frequency below one, which is given as it is shown. -/
  | frequencyTooLow (doc : Int) (shown : Text)
  | missing (name : Text)
  /-- A value is of a kind that does not allow what is asked of it. -/
  | wrongKind
  /-- A value has no members or no text where some are asked for. -/
  | noMembers
  | notAnInteger
  /-- An integer has more digits than a text of one may have. -/
  | tooManyDigits
  | infinite
  /-- An entry does not consist of an id and a text. -/
  | notAPair
  | notADate
  | divisionByZero
  | quotientOverflow
  /-- A logarithm is taken of a number that is not positive. -/
  | logarithmDomain
  | noConfiguration (name : Text)
  /-- A choice in the configuration is not written as choices are. -/
  | malformedChoice
  /-- A choice leaves open what the configuration is to be. -/
  | ambiguousChoice
  /-- A value is given where the configuration takes the name of a part. -/
  | notAPart
  | leftOpen
  /-- A value of the configuration refers to another one that there is not. -/
  | unresolved
  /-- The configuration does not say of which kind indexes are. -/
  | noSection
  deriving DecidableEq

def Failure.message : Failure → Text
  | unknownStemmer name => "Unknown stemmer: ".toText ++ name
  | unknownBackend name => "Index implementation ".toText ++ name ++ " not yet implemented".toText
  | unknownCore shown => "Invalid core: ".toText ++ shown
  | tooDeep shown => "Query nesting exceeds maximum depth of ".toText ++ shown
  | notLoaded => "No index loaded. Call create_index() or load_index() first.".toText
  | noIndexAt path => "Index not found at ".toText ++ path
  | noDatabaseAt path => "RocksDB not found: ".toText ++ path
  | notADatabase path => path ++ " holds no database".toText
  | noMetadataIn path => "No index metadata found in ".toText ++ path
  | noIndexNamed name => "Index ".toText ++ name ++ " not found".toText
  | noFile => "no such file".toText
  | notAFolder => "there is a file in place of a folder".toText
  | isAFolder => "there is a folder in place of a file".toText
  | fileInTheWay => "a file of that name exists".toText
  | nameTooLong => "the name is too long".toText
  | notAName => "the name has a character that no name may have".toText
  | notInText => "the component is not stored as text".toText
  | notInBinary => "the component is not stored in binary form".toText
  | noDatasetAt path => "Dataset file not found: ".toText ++ path
  | undecodable => "the file is not encoded in UTF-8".toText
  | notJson => "the line is no JSON value".toText
  | documentExists doc => "Document ".toText ++ decimal doc ++ " already exists".toText
  | lengthRecorded doc => "Length already recorded for document ".toText ++ decimal doc
  | frequencyTooLow doc shown =>
    "Posting for doc ".toText ++ decimal doc ++ " must have term_freq >= 1, got ".toText ++ shown
  | missing name => "missing field ".toText ++ name
  | wrongKind => "the value is of the wrong kind".toText
  | noMembers => "the value has no such members".toText
  | notAnInteger => "the value is not an integer".toText
  | tooManyDigits => "the integer has too many digits".toText
  | infinite => "an infinite number is not an integer".toText
  | notAPair => "the entry is not a pair".toText
  | notADate => "the text is not a date".toText
  | divisionByZero => "division by zero".toText
  | quotientOverflow => "the quotient is too large".toText
  | logarithmDomain => "the logarithm is defined for positive numbers only".toText
  | noConfiguration name => "no configuration named ".toText ++ name
  | malformedChoice => "the choice is malformed".toText
  | ambiguousChoice => "the choice is ambiguous".toText
  | notAPart => "the choice names no part of the configuration".toText
  | leftOpen => "the value is left open".toText
  | unresolved => "the value refers to none".toText
  | noSection => "the configuration names no kind of index".toText

end Concordance
