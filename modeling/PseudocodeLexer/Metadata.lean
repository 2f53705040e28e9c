import PseudocodeLexer.Json.Record
import PseudocodeLexer.Json.Writer
import PseudocodeLexer.Text.Blank

/-!
# Language metadata

What an editor needs to know about the language: its names and its comment marks. A line is
commented out by putting the line comment mark behind its indentation.
-/

namespace PseudocodeLexer

open Text

structure BlockComment where
  start : Text
  stop : Text
  deriving DecidableEq

structure LanguageMetadata where
  id : Text
  name : Text
  lineComment : Text
  blockComment : BlockComment
  deriving DecidableEq

namespace BlockComment

structure Draft where
  start : Option Text
  stop : Option Text

def Draft.finish (draft : Draft) : Except Json.Cause BlockComment := do
  let start ← Json.require "start" draft.start
  let stop ← Json.require "end" draft.stop
  return { start, stop }

def record : Json.Record Draft BlockComment where
  name := "BlockComment".toList
  fields :=
    [.ofReader "start".toList Json.string Draft.start
        fun draft t => { draft with start := some t },
     .ofReader "end".toList Json.string Draft.stop
        fun draft t => { draft with stop := some t }]
  empty := ⟨none, none⟩
  finish := Draft.finish

def write (layout : Json.Layout) (depth : Nat) (marks : BlockComment) : Text :=
  Json.writeObject layout depth
    [("start".toList, Json.writeString marks.start),
     ("end".toList, Json.writeString marks.stop)]

end BlockComment

namespace LanguageMetadata

/-- The language that this library scans. -/
def pseudocode : LanguageMetadata where
  id := "ace/mode/pseudocode".toList
  name := "pseudocode".toList
  lineComment := "//".toList
  blockComment := { start := "/*".toList, stop := "*/".toList }

/-- A line commented out, with its indentation in front. -/
def commentLine (language : LanguageMetadata) (line : Text) : Text :=
  line.takeWhile isBlank ++ language.lineComment ++ ' ' :: line.dropWhile isBlank

structure Draft where
  id : Option Text
  name : Option Text
  lineComment : Option Text
  blockComment : Option BlockComment

def Draft.finish (draft : Draft) : Except Json.Cause LanguageMetadata := do
  let id ← Json.require "id" draft.id
  let name ← Json.require "name" draft.name
  let lineComment ← Json.require "line_comment" draft.lineComment
  let blockComment ← Json.require "block_comment" draft.blockComment
  return { id, name, lineComment, blockComment }

def record : Json.Record Draft LanguageMetadata where
  name := "LanguageMetadata".toList
  fields :=
    [.ofReader "id".toList Json.string Draft.id
        fun draft t => { draft with id := some t },
     .ofReader "name".toList Json.string Draft.name
        fun draft t => { draft with name := some t },
     .ofReader "line_comment".toList Json.string Draft.lineComment
        fun draft t => { draft with lineComment := some t },
     .ofReader "block_comment".toList BlockComment.record.reader Draft.blockComment
        fun draft marks => { draft with blockComment := some marks }]
  empty := ⟨none, none, none, none⟩
  finish := Draft.finish

def ofText (t : Text) : Except Json.Error LanguageMetadata :=
  record.reader.decode .text (Json.Symbol.ofText t)

def write (layout : Json.Layout) (language : LanguageMetadata) : Text :=
  Json.writeObject layout 0
    [("id".toList, Json.writeString language.id),
     ("name".toList, Json.writeString language.name),
     ("line_comment".toList, Json.writeString language.lineComment),
     ("block_comment".toList, language.blockComment.write layout 1)]

end LanguageMetadata

end PseudocodeLexer
