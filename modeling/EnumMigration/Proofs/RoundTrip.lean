import EnumMigration.Run.Record
import EnumMigration.Proofs.Decoded
import EnumMigration.Proofs.TimeText

/-!
# Records survive being written and read

A run record, a migration and each of their parts are read back from both layouts exactly as they
were, as long as their counts fit a machine word and their times have years of four digits.  What a
text stands for has such counts anyway, so a text that was rewritten once is not changed by being
rewritten again.

## Strategy

1. A field keeps a value according to its kind: required, with a default, or optional.
2. A record keeps a value if its fields do; `Codec.keeps_record` does the rest.
3. A count that was read fits a machine word, and so does the default that stands for an absent one.
-/

namespace EnumMigration.Json

/-! ## Kinds of fields -/

namespace Field

variable {α : Type} {name : String} {codec : Codec α}

theorem keeps_optional {value : Option α}
    (h : ∀ present, value = some present → codec.Keeps present) :
    (optional name codec).Keeps value := by
  cases value with
  | none => exact rfl
  | some present => exact (h present rfl).option_some

theorem obtains_of_required {value : α} (h : (required name codec).Obtains value) :
    codec.Obtains value := by
  rcases h with hread | habsent
  · exact hread
  · cases habsent

theorem obtains_of_defaulting {value default : α}
    (h : (defaulting name codec default).Obtains value) :
    codec.Obtains value ∨ value = default := by
  rcases h with hread | habsent
  · exact .inl hread
  · exact .inr (Option.some.inj habsent).symm

end Field

theorem keeps_optional_string {name : String} (value : Option String) :
    (Field.optional name .string).Keeps value :=
  Field.keeps_optional fun present _ => Codec.keeps_string present

/-! ## Lossless codecs -/

namespace Codec

variable {α : Type}

/-- What a text stands for, written in a layout. -/
def rewrite (codec : Codec α) (layout : α → String) (text : String) : Except DecodeError String :=
  (codec.read text).map layout

/-- Values are read from both layouts as they were, if their counts and times can be written.
Rewriting a text twice is the same as rewriting it once; this asks nothing of the counts. -/
structure Lossless (codec : Codec α) (Counted Timely : α → Prop) : Prop where
  read_write : ∀ value, Counted value → Timely value → codec.read (codec.write value) = .ok value
  read_writePretty :
    ∀ value, Counted value → Timely value → codec.read (codec.writePretty value) = .ok value
  rewrite_twice :
    ∀ text value, codec.read text = .ok value → Timely value →
      ∀ layout ∈ [codec.write, codec.writePretty],
        ∃ output, codec.rewrite layout text = .ok output ∧ codec.rewrite layout output = .ok output

theorem lossless_of_keeps {codec : Codec α} {Counted Timely : α → Prop}
    (hkeeps : ∀ value, Counted value → Timely value → codec.Keeps value)
    (hcounted : ∀ value, codec.Obtains value → Counted value) : codec.Lossless Counted Timely where
  read_write value hcount htime := (hkeeps value hcount htime).read_write
  read_writePretty value hcount htime := (hkeeps value hcount htime).read_writePretty
  rewrite_twice := by
    intro text value hread htime layout hlayout
    have hkeep := hkeeps value (hcounted value (obtains_of_read hread)) htime
    have hagain : codec.read (layout value) = .ok value := by
      simp only [List.mem_cons, List.not_mem_nil, or_false] at hlayout
      rcases hlayout with rfl | rfl
      · exact hkeep.read_write
      · exact hkeep.read_writePretty
    refine ⟨layout value, ?_, ?_⟩
    · rw [rewrite, hread]
      rfl
    · rw [rewrite, hagain]
      rfl

end Codec

end EnumMigration.Json

namespace EnumMigration

open Json

/-! ## Migrations -/

theorem Path.keeps_codec (path : Path) : codec.Keeps path :=
  ⟨fun _ => rfl, joins_singleton ⟨_, rfl⟩, _, [], rfl, rfl⟩

theorem PatternEntry.keeps_codec (entry : PatternEntry) : codec.Keeps entry :=
  Codec.keeps_record (by decide) ⟨Codec.keeps_string _, Codec.keeps_string _, trivial⟩ rfl

theorem Migration.keeps_codec (migration : Migration) : codec.Keeps migration := by
  have hpatterns : (Codec.list PatternEntry.codec).Keeps migration.patterns :=
    Codec.keeps_list fun entry _ => entry.keeps_codec
  have hfiles : (Codec.list Path.codec).Keeps migration.files :=
    Codec.keeps_list fun path _ => path.keeps_codec
  refine Codec.keeps_record (by decide) ?_ rfl
  exact ⟨Codec.keeps_string _, Codec.keeps_string _, hpatterns, hfiles, trivial⟩

/-! ## Results and summaries -/

theorem FileStatus.keeps_codec (status : FileStatus) : codec.Keeps status := by
  refine ⟨fun rest => ?_, joins_singleton ⟨_, rfl⟩, _, [], rfl, rfl⟩
  have hlabel : decodeLabel status.label = .ok status := by
    simp only [decodeLabel, ofLabel?_label]
  show (decodeLabel status.label >>= fun found => .ok (found, rest)) = .ok (status, rest)
  rw [hlabel]
  rfl

/-- The number of replacements fits a machine word. -/
def FileResult.Counted (result : FileResult) : Prop := result.replacements < wordBound

theorem FileResult.keeps_codec {result : FileResult} (h : result.Counted) : codec.Keeps result := by
  refine Codec.keeps_record (by decide) ?_ rfl
  exact ⟨Codec.keeps_string _, FileStatus.keeps_codec _, keeps_optional_string _,
    Codec.keeps_count h, Codec.keeps_flag _, keeps_optional_string _, keeps_optional_string _,
    trivial⟩

theorem FileResult.counted_of_obtains {result : FileResult} (h : codec.Obtains result) :
    result.Counted := by
  obtain ⟨⟨path, status, message, replacements, others⟩, rfl, -, -, -, hreplacements, -⟩ :=
    Codec.obtains_record h
  show replacements < wordBound
  rcases Field.obtains_of_defaulting hreplacements with hread | hzero
  · exact Codec.lt_wordBound_of_obtains hread
  · rw [hzero]
    decide

/-- Every number of a summary fits a machine word. -/
def RunSummary.Counted (summary : RunSummary) : Prop :=
  ∀ n ∈ [summary.examined, summary.updated, summary.unchanged, summary.missing, summary.errored],
    n < wordBound

theorem RunSummary.keeps_codec {summary : RunSummary} (h : summary.Counted) :
    codec.Keeps summary := by
  simp only [Counted, List.forall_mem_cons] at h
  obtain ⟨hexamined, hupdated, hunchanged, hmissing, herrored, -⟩ := h
  refine Codec.keeps_record (by decide) ?_ rfl
  exact ⟨Codec.keeps_count hexamined, Codec.keeps_count hupdated, Codec.keeps_count hunchanged,
    Codec.keeps_count hmissing, Codec.keeps_count herrored, trivial⟩

theorem RunSummary.counted_of_obtains {summary : RunSummary} (h : codec.Obtains summary) :
    summary.Counted := by
  obtain ⟨_, rfl, hexamined, hupdated, hunchanged, hmissing, herrored, -⟩ := Codec.obtains_record h
  have hword : ∀ {name n}, (Field.required name .count).Obtains n → n < wordBound := fun hn =>
    Codec.lt_wordBound_of_obtains (Field.obtains_of_required hn)
  simp only [Counted, List.forall_mem_cons]
  exact ⟨hword hexamined, hword hupdated, hword hunchanged, hword hmissing, hword herrored, by simp⟩

/-! ## Runs -/

theorem ToolInfo.keeps_codec (tool : ToolInfo) : codec.Keeps tool :=
  Codec.keeps_record (by decide) ⟨Codec.keeps_string _, keeps_optional_string _, trivial⟩ rfl

/-- A point in time whose year has four digits. -/
def Timestamp.HasShortYear (timestamp : Timestamp) : Prop :=
  0 ≤ timestamp.year ∧ timestamp.year ≤ 9999

namespace RunRecord

/-- All counts of a run fit a machine word. -/
def Counted (run : RunRecord) : Prop :=
  (∀ result ∈ run.results, result.Counted) ∧ run.summary.Counted

/-- The times of a run that are known have years of four digits. -/
def Timely (run : RunRecord) : Prop :=
  (∀ begun, run.startedAt = some begun → begun.HasShortYear) ∧
    ∀ ended, run.endedAt = some ended → ended.HasShortYear

theorem keeps_codec {run : RunRecord} (hcounted : run.Counted) (htimely : run.Timely) :
    codec.Keeps run := by
  obtain ⟨hresults, hsummary⟩ := hcounted
  obtain ⟨hbegun, hended⟩ := htimely
  have htime : ∀ {name : String} {time : Option Timestamp},
      (∀ present, time = some present → present.HasShortYear) →
        (Field.optional name Timestamp.codec).Keeps time := by
    intro name time hshort
    apply Field.keeps_optional
    intro present hpresent
    exact present.keeps_codec (hshort present hpresent).1 (hshort present hpresent).2
  have hlist : (Codec.list FileResult.codec).Keeps run.results :=
    Codec.keeps_list fun result hmem => FileResult.keeps_codec (hresults result hmem)
  refine Codec.keeps_record (by decide) ?_ rfl
  exact ⟨Codec.keeps_string _, Codec.keeps_string _, ToolInfo.keeps_codec _, Codec.keeps_string _,
    Codec.keeps_string _, Codec.keeps_flag _, htime hbegun, htime hended, hlist,
    RunSummary.keeps_codec hsummary, trivial⟩

theorem counted_of_obtains {run : RunRecord} (h : codec.Obtains run) : run.Counted := by
  obtain ⟨⟨schema, runId, tool, root, migration, dryRun, startedAt, endedAt, results, others⟩, rfl,
    -, -, -, -, -, -, -, -, hresults, hsummary, -⟩ := Codec.obtains_record h
  refine ⟨?_, RunSummary.counted_of_obtains (Field.obtains_of_required hsummary)⟩
  intro result hmem
  rcases Field.obtains_of_defaulting hresults with hread | hnone
  · exact FileResult.counted_of_obtains (Codec.obtains_of_obtains_list hread result hmem)
  · replace hmem : result ∈ results := hmem
    rw [hnone] at hmem
    cases hmem

end RunRecord

/-! ## The round trip -/

/-- Runs and migrations and all their parts are read from both layouts as they were written, and
rewriting a text settles at once. -/
theorem codecs_lossless :
    RunRecord.codec.Lossless RunRecord.Counted RunRecord.Timely ∧
      Migration.codec.Lossless (fun _ => True) (fun _ => True) ∧
      FileResult.codec.Lossless FileResult.Counted (fun _ => True) ∧
      RunSummary.codec.Lossless RunSummary.Counted (fun _ => True) ∧
      ToolInfo.codec.Lossless (fun _ => True) (fun _ => True) ∧
      PatternEntry.codec.Lossless (fun _ => True) (fun _ => True) := by
  refine ⟨?_, ?_, ?_, ?_, ?_, ?_⟩
  · exact Codec.lossless_of_keeps (fun _ => RunRecord.keeps_codec)
      fun _ => RunRecord.counted_of_obtains
  · exact Codec.lossless_of_keeps (fun migration _ _ => migration.keeps_codec) fun _ _ => trivial
  · exact Codec.lossless_of_keeps (fun _ hcounted _ => FileResult.keeps_codec hcounted)
      fun _ => FileResult.counted_of_obtains
  · exact Codec.lossless_of_keeps (fun _ hcounted _ => RunSummary.keeps_codec hcounted)
      fun _ => RunSummary.counted_of_obtains
  · exact Codec.lossless_of_keeps (fun tool _ _ => tool.keeps_codec) fun _ _ => trivial
  · exact Codec.lossless_of_keeps (fun entry _ _ => entry.keeps_codec) fun _ _ => trivial

/-- A run that ended in a leap second, with control characters, quotes and the greatest counts. -/
def RunRecord.extreme : RunRecord where
  schema := schemaName
  runId := "\"\\\x00\n "
  tool := ⟨"", some ""⟩
  root := "/a/\x7f"
  migration := "𝄞"
  dryRun := true
  startedAt := none
  endedAt := some ⟨⟨9999, 12, 31, 23, 59, 60, 999999999⟩, by decide⟩
  results :=
    [⟨"a", .updated, none, wordBound - 1, true, some "", none⟩, .errored "b" "\r\t", .missing ""]
  summary := ⟨wordBound - 1, 0, 1, 2, wordBound - 1⟩

theorem extreme_lossless :
    RunRecord.extreme.Counted ∧ RunRecord.extreme.Timely ∧
      RunRecord.codec.read (RunRecord.codec.writePretty .extreme) = .ok .extreme := by
  have hcounted : RunRecord.extreme.Counted := by
    constructor
    · simp [RunRecord.extreme, FileResult.Counted, FileResult.errored, FileResult.missing,
        FileResult.ofStatus, wordBound]
    · simp [RunRecord.extreme, RunSummary.Counted, wordBound]
  have htimely : RunRecord.extreme.Timely := by
    constructor
    · intro begun hbegun
      cases hbegun
    · intro ended hended
      obtain rfl := Option.some.inj hended
      exact ⟨by decide, by decide⟩
  exact ⟨hcounted, htimely, codecs_lossless.1.read_writePretty _ hcounted htimely⟩

end EnumMigration
