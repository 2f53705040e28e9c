import PseudocodeLexer.Json.Record
import PseudocodeLexer.Json.Writer

/-!
# Scan configurations

A configuration says whether comments are recognized, which suffix ends the scope names, and how
tokens are printed. Each field has a default, so the empty object is a configuration.
-/

namespace PseudocodeLexer

/-! ## Output formats -/

inductive OutputFormat where
  | tsv
  | json
  | scopes
  deriving DecidableEq

namespace OutputFormat

def all : List OutputFormat :=
  [.tsv, .json, .scopes]

def name : OutputFormat → Text
  | .tsv => "Tsv".toList
  | .json => "Json".toList
  | .scopes => "Scopes".toList

def label : OutputFormat → Text
  | .tsv => "tsv".toList
  | .json => "json".toList
  | .scopes => "scopes".toList

def choices : List (Text × OutputFormat) :=
  all.map fun format => (format.label, format)

def ofLabel? (label : Text) : Option OutputFormat :=
  choices.lookup label

def reader : Json.Reader OutputFormat :=
  Json.choice choices

end OutputFormat

/-! ## Configurations -/

structure ScanConfig where
  recognizeComments : Bool
  scopeSuffix : Text
  format : OutputFormat
  deriving DecidableEq

namespace ScanConfig

def default : ScanConfig where
  recognizeComments := false
  scopeSuffix := "pseudocode".toList
  format := .tsv

/-- The fields of a configuration that have been given. -/
structure Draft where
  recognizeComments : Option Bool
  scopeSuffix : Option Text
  format : Option OutputFormat

namespace Draft

def empty : Draft :=
  ⟨none, none, none⟩

def finish (draft : Draft) : ScanConfig where
  recognizeComments := draft.recognizeComments.getD default.recognizeComments
  scopeSuffix := draft.scopeSuffix.getD default.scopeSuffix
  format := draft.format.getD default.format

end Draft

def record : Json.Record Draft ScanConfig where
  name := "ScanConfig".toList
  fields :=
    [.ofReader "recognize_comments".toList Json.bool Draft.recognizeComments
        fun draft b => { draft with recognizeComments := some b },
     .ofReader "scope_suffix".toList Json.string Draft.scopeSuffix
        fun draft t => { draft with scopeSuffix := some t },
     .ofReader "format".toList OutputFormat.reader Draft.format
        fun draft f => { draft with format := some f }]
  empty := .empty
  finish draft := .ok draft.finish

def ofText (t : Text) : Except Json.Error ScanConfig :=
  record.reader.decode .text (Json.Symbol.ofText t)

def ofBytes (bytes : ByteArray) : Except Json.Error ScanConfig :=
  record.reader.decode .file (Json.Symbol.ofBytes bytes)

def write (config : ScanConfig) : Text :=
  Json.writeObject .compact 0
    [("recognize_comments".toList, Json.writeBool config.recognizeComments),
     ("scope_suffix".toList, Json.writeString config.scopeSuffix),
     ("format".toList, Json.writeString config.format.label)]

end ScanConfig

end PseudocodeLexer
