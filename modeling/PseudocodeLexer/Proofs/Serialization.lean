import PseudocodeLexer.Proofs.Arguments
import PseudocodeLexer.Proofs.Positions
import PseudocodeLexer.Proofs.Runs
import PseudocodeLexer.Proofs.WrittenRecords

/-!
# Configurations and metadata survive being written

The members that are written for a configuration or for the metadata of a language are absorbed by
the drafts of their records, and the finished draft is what was written. A file that holds a text
has the symbols of that text (`Symbol.ofBytes_utf8Encode`), so a configuration is read back from a
file as it is from text.
-/

namespace PseudocodeLexer

open Text

/-! ## Symbols of files -/

namespace Json.Symbol

theorem utf8DecodeChar?_utf8Encode (before : Text) (c : Char) (t : Text) :
    (before ++ c :: t).utf8Encode.utf8DecodeChar? (utf8Length before) = some c := by
  have hextract := extract_utf8Encode before (c :: t) []
  rw [List.append_nil, ← size_utf8Encode (before ++ c :: t)] at hextract
  rw [ByteArray.utf8DecodeChar?_eq_utf8DecodeChar?_extract, hextract,
    List.utf8DecodeChar?_utf8Encode_cons]

/-- From the end of a beginning on, the symbols are those of the rest. -/
theorem ofBytesFrom_utf8Encode (before t : Text) :
    ofBytesFrom (before ++ t).utf8Encode (utf8Length before) = ofText t := by
  induction t generalizing before with
  | nil =>
      rw [ofBytesFrom, dif_neg]
      · rfl
      · rw [List.append_nil, size_utf8Encode]
        exact Nat.lt_irrefl _
  | cons c t ih =>
      have hrest := ih (before ++ [c])
      rw [List.append_assoc, List.singleton_append, utf8Length_append] at hrest
      have hwidth : utf8Length [c] = c.utf8Size := by simp
      have hinside : utf8Length before < (before ++ c :: t).utf8Encode.size := by
        have hpos := c.utf8Size_pos
        rw [size_utf8Encode, utf8Length_append, utf8Length_cons]
        omega
      rw [ofBytesFrom, dif_pos hinside, utf8DecodeChar?_utf8Encode]
      simp only [ofText_cons, ← hrest, hwidth]

theorem ofBytes_utf8Encode (t : Text) : ofBytes t.utf8Encode = ofText t :=
  ofBytesFrom_utf8Encode [] t

end Json.Symbol

/-! ## Configurations -/

open Json

namespace OutputFormat

theorem reader_takesBack (format : OutputFormat) :
    reader.TakesBack (writeString format.label) format :=
  choice_takesBack (ofLabel?_label format)

end OutputFormat

namespace ScanConfig

theorem absorbs_write (config : ScanConfig) :
    record.Absorbs .empty
      [("recognize_comments".toList, writeBool config.recognizeComments),
       ("scope_suffix".toList, writeString config.scopeSuffix),
       ("format".toList, writeString config.format.label)]
      ⟨some config.recognizeComments, some config.scopeSuffix, some config.format⟩ := by
  refine .cons rfl rfl ((bool_takesBack _).map _) ?_
  refine .cons rfl rfl ((string_takesBack _).map _) ?_
  refine .cons rfl rfl (config.format.reader_takesBack.map _) ?_
  exact .nil _

theorem write_takesBack (config : ScanConfig) :
    record.reader.TakesBack config.write config :=
  Record.takesBack config.absorbs_write rfl

end ScanConfig

/-! ## Metadata -/

namespace BlockComment

theorem absorbs_write (marks : BlockComment) :
    record.Absorbs record.empty
      [("start".toList, writeString marks.start), ("end".toList, writeString marks.stop)]
      ⟨some marks.start, some marks.stop⟩ := by
  refine .cons rfl rfl ((string_takesBack _).map _) ?_
  refine .cons rfl rfl ((string_takesBack _).map _) ?_
  exact .nil _

theorem write_takesBack (layout : Layout) (depth : Nat) (marks : BlockComment) :
    record.reader.TakesBack (marks.write layout depth) marks :=
  Record.takesBack marks.absorbs_write rfl

end BlockComment

namespace LanguageMetadata

theorem absorbs_write (layout : Layout) (language : LanguageMetadata) :
    record.Absorbs record.empty
      [("id".toList, writeString language.id), ("name".toList, writeString language.name),
       ("line_comment".toList, writeString language.lineComment),
       ("block_comment".toList, language.blockComment.write layout 1)]
      ⟨some language.id, some language.name, some language.lineComment,
        some language.blockComment⟩ := by
  refine .cons rfl rfl ((string_takesBack _).map _) ?_
  refine .cons rfl rfl ((string_takesBack _).map _) ?_
  refine .cons rfl rfl ((string_takesBack _).map _) ?_
  refine .cons rfl rfl ((language.blockComment.write_takesBack layout 1).map _) ?_
  exact .nil _

theorem write_takesBack (layout : Layout) (language : LanguageMetadata) :
    record.reader.TakesBack (language.write layout) language :=
  Record.takesBack (language.absorbs_write layout) rfl

end LanguageMetadata

/-- **Configurations and metadata survive being written.** A configuration is read back as it was
from what is written for it, as text and from a file that holds this text, and the metadata of a
language in either layout, whatever their texts are. -/
theorem read_written :
    (∀ config : ScanConfig,
      ScanConfig.ofText config.write = .ok config ∧
      ∀ path, (CommandLine.Entry.content config.write.utf8Encode).config path = .ok config) ∧
    ∀ (language : LanguageMetadata) (layout : Layout),
      LanguageMetadata.ofText (language.write layout) = .ok language := by
  refine ⟨fun config => ⟨?_, fun path => ?_⟩, fun language layout => ?_⟩
  · exact config.write_takesBack.decode .text
  · refine CommandLine.Entry.config_eq_ok_iff.mpr ⟨_, rfl, ?_⟩
    rw [ScanConfig.ofBytes, Symbol.ofBytes_utf8Encode]
    exact config.write_takesBack.decode .file
  · exact (language.write_takesBack layout).decode .text

end PseudocodeLexer
