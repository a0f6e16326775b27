import DriftField.Colour
import DriftField.Expr.Source
import DriftField.Grammar.Synthesis
import DriftField.Library
import DriftField.Parameters
import DriftField.Share
import DriftField.Text.Quoted
/-!
Everything that may go wrong, with the message for each cause.
-/

namespace DriftField

inductive FileCause where
  | absent
  | directory
  | notDirectory
  | nameTooLong
  | notText
  | malformedLibrary
  /-- The name does not say which image format is meant. -/
  | noImageFormat
  | unknownImageFormat (extension : String)
  | unsupportedImageFormat (format : String)
  /-- Any other cause, in the words of the system. -/
  | other (reason : String)
  deriving DecidableEq

def FileCause.message : FileCause → String
  | .absent => "No such file or directory (os error 2)"
  | .directory => "Is a directory (os error 21)"
  | .notDirectory => "Not a directory (os error 20)"
  | .nameTooLong => "File name too long (os error 36)"
  | .notText => "stream did not contain valid UTF-8"
  | .malformedLibrary => "malformed library: no library record where one was expected"
  | .noImageFormat => "The image format could not be determined"
  | .unknownImageFormat extension =>
      "The file extension " ++ String.ofList ('\u0060' :: '.' :: Text.quoted extension.toList ++ ['\u0060'])
        ++ " was not recognized as an image format"
  | .unsupportedImageFormat format =>
      "The image format " ++ String.ofList ('\u0060' :: format.toList ++ ['\u0060']) ++ " is not supported"
  | .other reason => reason

inductive Fault where
  | dimensions
  | parameter (fault : ParameterFault)
  | colour (fault : ColourFault)
  | synthesis (failure : Synthesis.Failure Float)
  | noTerminalRule
  | source (error : SourceError)
  | tooLarge
  | share (fault : ShareFault)
  | unknownPreset (name : String)
  | library (fault : LibraryFault)
  | file (path : String) (cause : FileCause)

def Fault.message : Fault → String
  | .dimensions => "invalid dimensions: width and height must be positive and finite"
  | .parameter fault => fault.message
  | .colour fault => s!"invalid color: {fault.message}"
  | .synthesis (.exhausted mass) =>
      s!"synthesis exhausted: rule probabilities sum to {Decimal.plainString mass}, no rule selected"
  | .synthesis .unfinished => "synthesis unfinished: the rules were nested too deeply"
  | .noTerminalRule => "grammar has no terminal rule"
  | .source error => s!"parse error at byte {error.offset}: {error.cause.message}"
  | .tooLarge => "compile error: expression pair exceeds the size or depth limit"
  | .share fault => s!"invalid share string: {fault.message}"
  | .unknownPreset name => s!"unknown preset: {name}"
  | .library fault => fault.message
  | .file path cause => s!"{path}: {cause.message}"

end DriftField
