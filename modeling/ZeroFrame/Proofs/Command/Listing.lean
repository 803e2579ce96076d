/-
This file shows that the listing of a stream is a function of its bytes.

What a line looks like is said character by character: decimal digits in columns, a word, and two
hexadecimal digits for each byte. A listing is made while the stream is read: each chunk leads to
some reports, the lines are numbered as the reports come, and what is pending at the end is counted.
The receiver tracks its stream all along, and after each chunk no separator is left. So the reports
are those of the ended segments, in order and each once, and the line of a segment can be read off
its bytes: the codec has the only say in it, since a verbatim table refuses nothing.
-/

import ZeroFrame.Command.Listing
import ZeroFrame.Proofs.Link.Tracking
import ZeroFrame.Proofs.Text.Hex
import ZeroFrame.Proofs.Text.Numeral

namespace ZeroFrame.Command

/-! ### What a line looks like -/

/-- The decimal digits of a number, with spaces after them up to a width. -/
inductive Column (width number : Nat) : List Char → Prop
  | digits {text : List Char} (decimal : Text.Decimal text number) :
      Column width number (text ++ List.replicate (width - text.length) ' ')

/-- What a line begins with: the number of a frame and its encoded and decoded size. -/
inductive Front (number encoded decoded : Nat) : List Char → Prop
  | columns {first second third : List Char} (numbered : Column 5 number first)
      (outer : Column 4 encoded second) (inner : Column 4 decoded third) :
      Front number encoded decoded
        ('#' :: first ++ " enc=".toList ++ second ++ " dec=".toList ++ third ++ [' '])

/-- A line ends with a word, or with the bytes to show if there are any; no space stands at its
end. -/
inductive Line (number encoded decoded : Nat) (word : List Char) : Bytes → List Char → Prop
  | bare {front : List Char} (begins : Front number encoded decoded front) :
      Line number encoded decoded word [] (front ++ word)
  | shown {front text : List Char} {bytes : Bytes} (begins : Front number encoded decoded front)
      (filled : bytes ≠ []) (shows : Text.Shows bytes text) :
      Line number encoded decoded word bytes
        (front ++ word ++ List.replicate (11 - word.length) ' ' ++ ' ' :: text)

/-- The bytes of a payload that are shown: all of them, or none of the zeros at the end. -/
inductive Shown : Bool → Bytes → Bytes → Prop
  | whole (payload : Bytes) : Shown false payload payload
  | stripped {bytes : Bytes} (literal : bytes.getLast? ≠ some 0) (zeros : Nat) :
      Shown true (bytes ++ List.replicate zeros 0) bytes

/-- The line of a segment. It shows the payload if the codec accepts the segment, with the size that
the payload has before zeros are stripped, and else the segment itself. -/
inductive SegmentLine (strip : Bool) (number : Nat) (raw : Bytes) : List Char → Prop
  | ok {payload bytes : Bytes} {text : List Char} (accepted : Codeword.decode raw = .ok payload)
      (shown : Shown strip payload bytes)
      (line : Line number raw.length payload.length "ok".toList bytes text) :
      SegmentLine strip number raw text
  | malformed {flaw : Codeword.Flaw} {text : List Char}
      (refused : Codeword.decode raw = .error flaw)
      (line : Line number raw.length 0 "malformed".toList raw text) :
      SegmentLine strip number raw text

/-- The line that counts what is open at the end of a stream. -/
inductive TrailingLine (size : Nat) : List Char → Prop
  | digits {text : List Char} (decimal : Text.Decimal text size) :
      TrailingLine size (text ++ " trailing bytes without separator".toList)

/-- What is recorded about a segment. -/
def segmentRecords (raw : Bytes) : List Record :=
  match Codeword.decode raw with
  | .ok _ => []
  | .error flaw =>
    [⟨.debug, "Frame of " ++ toString raw.length ++ " encoded bytes did not decode: " ++
      Fault.codewordMessage flaw⟩]

/-- The listing has a line for each ended segment of the stream, numbered from zero, and one for
what is open at its end, if that is anything. -/
structure Listed (strip : Bool) (stream : Bytes) (listing : Listing) : Prop where
  line : ∀ number raw, (segments stream).ended[number]? = some raw →
    ∃ line, listing.lines[number]? = some line ∧ SegmentLine strip number raw line.toList
  closed : (segments stream).rest = [] → listing.lines.length = (segments stream).ended.length
  trailing : (segments stream).rest ≠ [] →
    listing.lines.length = (segments stream).ended.length + 1 ∧
      ∃ line, listing.lines[(segments stream).ended.length]? = some line ∧
        TrailingLine (segments stream).rest.length line.toList
  count : listing.count = (segments stream).ended.length
  log : listing.log = (segments stream).ended.flatMap segmentRecords

/-! ### Nothing else looks like it -/

section Uniqueness

variable {width number encoded decoded size : Nat} {strip : Bool} {word text other : List Char}
  {payload bytes raw stream : Bytes}

theorem toList_padRight (width : Nat) (text : String) :
    (padRight width text).toList =
      text.toList ++ List.replicate (width - text.toList.length) ' ' := by
  rw [padRight, String.toList_append, String.toList_ofList, String.length_toList]

theorem column_iff :
    Column width number text ↔ text = (padRight width (toString number)).toList := by
  rw [toList_padRight]
  constructor
  · rintro ⟨decimal⟩
    rw [Text.decimal_iff.mp decimal]
  · rintro rfl
    exact .digits (Text.decimal_iff.mpr rfl)

theorem Front.unique (first : Front number encoded decoded text)
    (second : Front number encoded decoded other) : text = other := by
  obtain ⟨numbered, outer, inner⟩ := first
  obtain ⟨otherNumbered, otherOuter, otherInner⟩ := second
  rw [column_iff.mp numbered, column_iff.mp outer, column_iff.mp inner,
    column_iff.mp otherNumbered, column_iff.mp otherOuter, column_iff.mp otherInner]

theorem Line.unique (first : Line number encoded decoded word bytes text)
    (second : Line number encoded decoded word bytes other) : text = other := by
  cases first with
  | bare begins =>
    cases second with
    | bare otherBegins => rw [begins.unique otherBegins]
    | shown _ filled _ => exact absurd rfl filled
  | shown begins filled shows =>
    cases second with
    | bare => exact absurd rfl filled
    | shown otherBegins _ otherShows =>
      rw [begins.unique otherBegins, Text.shows_iff.mp shows, Text.shows_iff.mp otherShows]

theorem shown_iff :
    Shown strip payload bytes ↔ bytes = if strip then payload.stripZeros else payload := by
  constructor
  · rintro (_ | ⟨literal, zeros⟩)
    · rfl
    · exact ((Bytes.stripZeros_append_separators ..).trans
        (Bytes.stripZeros_of_getLast?_ne literal)).symm
  · rintro rfl
    cases strip with
    | false => exact .whole payload
    | true =>
      obtain ⟨zeros, split⟩ := payload.exists_stripZeros
      have shown := Shown.stripped payload.getLast?_stripZeros zeros
      rwa [← separator, ← split] at shown

theorem SegmentLine.unique (first : SegmentLine strip number raw text)
    (second : SegmentLine strip number raw other) : text = other := by
  cases first with
  | ok accepted shown line =>
    cases second with
    | ok otherAccepted otherShown otherLine =>
      obtain rfl := Except.ok.inj (accepted.symm.trans otherAccepted)
      obtain rfl := (shown_iff.mp shown).trans (shown_iff.mp otherShown).symm
      exact line.unique otherLine
    | malformed refused => cases accepted.symm.trans refused
  | malformed refused line =>
    cases second with
    | ok accepted => cases accepted.symm.trans refused
    | malformed _ otherLine => exact line.unique otherLine

theorem TrailingLine.unique (first : TrailingLine size text) (second : TrailingLine size other) :
    text = other := by
  obtain ⟨decimal⟩ := first
  obtain ⟨otherDecimal⟩ := second
  rw [Text.decimal_iff.mp decimal, Text.decimal_iff.mp otherDecimal]

theorem Listed.length_le {listing : Listing} (listed : Listed strip stream listing) :
    listing.lines.length ≤ (segments stream).ended.length + 1 := by
  by_cases closed : (segments stream).rest = []
  · rw [listed.closed closed]
    exact Nat.le_succ _
  · exact (listed.trailing closed).1.le

/-- What is listed of a stream is settled. -/
theorem Listed.unique {first second : Listing} (one : Listed strip stream first)
    (two : Listed strip stream second) : first = second := by
  have lines : first.lines = second.lines := by
    refine List.ext_getElem? fun number => ?_
    rcases Nat.lt_trichotomy number (segments stream).ended.length with within | rfl | beyond
    · obtain ⟨line, found, written⟩ := one.line number _ (List.getElem?_eq_getElem within)
      obtain ⟨other, otherFound, otherWritten⟩ :=
        two.line number _ (List.getElem?_eq_getElem within)
      rw [found, otherFound, String.toList_inj.mp (written.unique otherWritten)]
    · by_cases closed : (segments stream).rest = []
      · rw [List.getElem?_eq_none (one.closed closed).le,
          List.getElem?_eq_none (two.closed closed).le]
      · obtain ⟨_, line, found, written⟩ := one.trailing closed
        obtain ⟨_, other, otherFound, otherWritten⟩ := two.trailing closed
        rw [found, otherFound, String.toList_inj.mp (written.unique otherWritten)]
    · rw [List.getElem?_eq_none (one.length_le.trans beyond),
        List.getElem?_eq_none (two.length_le.trans beyond)]
  obtain ⟨firstLines, _, _⟩ := first
  obtain ⟨secondLines, _, _⟩ := second
  obtain rfl : firstLines = secondLines := lines
  obtain rfl := one.count.trans two.count.symm
  obtain rfl := one.log.trans two.log.symm
  rfl

end Uniqueness

/-! ### Lines of reports -/

/-- The answers of a verbatim table. -/
def verbatimAnswer (strip : Bool) (payload : Bytes) : Except Fault (Bytes × Nat) :=
  .ok (Verbatim.frame ⟨strip⟩ payload, (Verbatim.frame ⟨strip⟩ payload).length)

/-- The spaces at the end are gone, and what does not end in one stays. -/
theorem toList_trimRight {line : String} {front back : List Char} {count : Nat}
    (split : line.toList = front ++ back ++ List.replicate count ' ')
    (last : ∃ char, back.getLast? = some char ∧ char ≠ ' ') :
    (trimRight line).toList = front ++ back := by
  have spaces : ∀ char ∈ List.replicate count ' ', decide (char = ' ') = true :=
    fun _ member => decide_eq_true (List.eq_of_mem_replicate member)
  have kept : ∀ char ∈ (front ++ back).reverse.head?, decide (char = ' ') = false := by
    obtain ⟨final, found, graphic⟩ := last
    rw [List.head?_reverse, List.getLast?_append, found]
    rintro char ⟨⟩
    exact decide_eq_false graphic
  rw [trimRight, String.toList_ofList, split, List.reverse_append, List.reverse_replicate,
    List.dropWhile_append_of_pos spaces, Text.dropWhile_of_head? kept, List.reverse_reverse]

theorem exists_getLast?_word (status : Status) :
    ∃ char, status.word.toList.getLast? = some char ∧ char ≠ ' ' := by
  cases status with
  | ok => exact ⟨'k', rfl, by decide⟩
  | tableError => exact ⟨'r', rfl, by decide⟩
  | malformed => exact ⟨'d', rfl, by decide⟩

theorem line_of_toList {number encoded decoded : Nat} {front word : List Char} {bytes : Bytes}
    {line : String} (begins : Front number encoded decoded front)
    (last : ∃ char, word.getLast? = some char ∧ char ≠ ' ')
    (written : line.toList = front ++ word ++ List.replicate (11 - word.length) ' ' ++
      ' ' :: (Text.Hex.spaced bytes).toList) :
    Line number encoded decoded word bytes (trimRight line).toList := by
  by_cases filled : bytes = []
  · subst filled
    have split : line.toList =
        front ++ word ++ List.replicate (11 - word.length + 1) ' ' := by
      rw [written, List.replicate_succ', ← List.append_assoc]
      rfl
    rw [toList_trimRight split last]
    exact .bare begins
  · have shows : Text.Shows bytes (Text.Hex.spaced bytes).toList := Text.shows_iff.mpr rfl
    have split : line.toList = front ++ word ++ List.replicate (11 - word.length) ' ' ++ [' '] ++
        (Text.Hex.spaced bytes).toList ++ List.replicate 0 ' ' := by
      rw [written, List.replicate_zero, List.append_nil, List.append_assoc _ [' ']]
      rfl
    rw [toList_trimRight split (shows.exists_getLast? filled), List.append_assoc _ [' ']]
    exact .shown begins filled shows

/-- The line of a report has the columns and the bytes that it is to have. -/
theorem line_frameLine (number : Nat) (report : Report Bytes) :
    Line number report.raw.length report.size (statusOf report).1.word.toList (statusOf report).2
      (frameLine number report).toList := by
  have begins : Front number report.raw.length report.size _ :=
    .columns (column_iff.mpr rfl) (column_iff.mpr rfl) (column_iff.mpr rfl)
  refine line_of_toList begins (exists_getLast?_word _) ?_
  simp only [String.toList_append, toList_padRight 11, List.append_assoc, List.cons_append]
  rfl

/-- A report that agrees with the bytes of its frame is listed as these bytes are. -/
theorem segmentLine_frameLine {strip : Bool} {report : Report Bytes}
    (agrees : (Taking.reported report).Agrees (verbatimAnswer strip)) (number : Nat) :
    SegmentLine strip number report.raw (frameLine number report).toList := by
  obtain ⟨frame, size⟩ := agrees
  have line := line_frameLine number report
  rw [frameOf] at frame
  rw [decodedSize] at size
  rw [statusOf, frame, size] at line
  cases accepted : Codeword.decode report.raw with
  | error flaw =>
    rw [accepted] at line
    exact .malformed accepted line
  | ok payload =>
    rw [accepted] at line
    exact .ok accepted (shown_iff.mpr rfl) line

theorem records_reported (strip : Bool) (report : Report Bytes) :
    (Taking.reported report).records (verbatimAnswer strip) = segmentRecords report.raw := by
  rw [Taking.records, segmentRecords, frameOf]
  cases Codeword.decode report.raw <;> rfl

/-! ### Feeding -/

theorem reportsOf_reverse {φ : Type} (reports : List (Report φ)) :
    reportsOf (reports.map Event.report).reverse = reports := by
  rw [reportsOf, List.reverse_reverse]
  exact filterMap_report? reports

section Feeding

variable {strip : Bool} {stream : Bytes} {taken : List (Taking Bytes)}
  {receiver : Receiver Verbatim}

/-- A chunk leads to the reports of all frames that it completes. -/
theorem feed_tracks (tracks : Tracks (verbatimAnswer strip) stream taken receiver)
    (chunk : Bytes) :
    Tracks (verbatimAnswer strip) (stream ++ chunk)
        (taken ++ (feed receiver chunk).1.map .reported) (feed receiver chunk).2 ∧
      Pending.separator? (feed receiver chunk).2.pending = none := by
  obtain ⟨reports, ending, after, finished, heard, next, ⟨_, idle⟩ | ⟨_, _, raised⟩⟩ :=
    (tracks.receive chunk).reportAll (.silent Bytes) 0 (Nat.lt_succ_self _)
  · have fed : feed receiver chunk = (reports, after.receiver) := by
      rw [← reportsOf_reverse reports, ← heard]
      exact congrArg (fun run : Exchange.Ending × Exchange Verbatim Bytes =>
        (reportsOf run.2.heard, run.2.receiver)) finished
    rw [fed]
    exact ⟨next, idle⟩
  · cases raised

theorem feedAll_tracks (tracks : Tracks (verbatimAnswer strip) stream taken receiver)
    (idle : Pending.separator? receiver.pending = none) (chunks : List Bytes) :
    Tracks (verbatimAnswer strip) (stream ++ chunks.flatten)
        (taken ++ (feedAll receiver chunks).1.map .reported) (feedAll receiver chunks).2 ∧
      Pending.separator? (feedAll receiver chunks).2.pending = none := by
  induction chunks generalizing stream taken receiver with
  | nil => simpa [feedAll] using And.intro tracks idle
  | cons chunk chunks inductionHypothesis =>
    obtain ⟨next, nextIdle⟩ := feed_tracks tracks chunk
    have later := inductionHypothesis next nextIdle
    rw [List.append_assoc, List.append_assoc, ← List.map_append] at later
    exact later

end Feeding

/-! ### Listings -/

theorem flatten_chunks (size : Nat) (bytes : Bytes) : (chunks size bytes).flatten = bytes := by
  fun_induction chunks size bytes with
  | case1 => rfl
  | case2 first rest inductionHypothesis =>
    rw [List.flatten_cons, inductionHypothesis, List.cons_append, List.take_append_drop]

/-- What is pending at the end has a line of its own, unless it is nothing. -/
theorem trailingLine_of_ne_nil {rest : Bytes} (pending : rest ≠ []) :
    ∃ line, trailingLines rest.length = [line] ∧ TrailingLine rest.length line.toList := by
  refine ⟨toString rest.length ++ " trailing bytes without separator", ?_, ?_⟩
  · rw [trailingLines, if_neg (List.length_eq_zero_iff.not.mpr pending)]
  · rw [String.toList_append]
    exact .digits (Text.decimal_iff.mpr rfl)

theorem listed_ofChunks (strip : Bool) (reads : List Bytes) :
    Listed strip reads.flatten (Listing.ofChunks strip reads) := by
  obtain ⟨tracks, idle⟩ := feedAll_tracks (Tracks.start (Verbatim.lawful ⟨strip⟩)) rfl reads
  obtain ⟨ended, pending⟩ := tracks.exhausts idle
  simp only [List.nil_append] at tracks ended pending
  rw [List.map_map] at ended
  have agree := List.forall_mem_map.mp tracks.agree
  have recorded := tracks.recorded
  have made : Listing.ofChunks strip reads =
      ⟨(feedAll (.fresh none ⟨strip⟩) reads).1.mapIdx frameLine ++
          trailingLines (feedAll (.fresh none ⟨strip⟩) reads).2.pending.length,
        (feedAll (.fresh none ⟨strip⟩) reads).1.length,
        (feedAll (.fresh none ⟨strip⟩) reads).2.log⟩ := rfl
  rw [made, pending]
  generalize (feedAll (.fresh none ⟨strip⟩) reads).1 = reports at ended agree recorded
  have size : reports.length = (segments reads.flatten).ended.length := by
    rw [← ended, List.length_map]
  have frames : (reports.mapIdx frameLine).length = (segments reads.flatten).ended.length := by
    rw [List.length_mapIdx, size]
  constructor
  case line =>
    intro number raw found
    rw [← ended, List.getElem?_map] at found
    obtain ⟨report, here, rfl⟩ := Option.map_eq_some_iff.mp found
    refine ⟨frameLine number report, ?_, segmentLine_frameLine (agree report ?_) number⟩
    · rw [List.getElem?_append_left, List.getElem?_mapIdx, here]
      · rfl
      · rw [List.length_mapIdx]
        exact (List.getElem?_eq_some_iff.mp here).1
    · exact List.mem_of_getElem? here
  case closed =>
    intro closed
    rw [closed, List.length_append, frames]
    rfl
  case trailing =>
    intro left
    obtain ⟨line, only, written⟩ := trailingLine_of_ne_nil left
    dsimp only
    rw [only, List.length_append, frames]
    refine ⟨rfl, line, ?_, written⟩
    rw [List.getElem?_append_right frames.le, frames, Nat.sub_self]
    rfl
  case count => exact size
  case log =>
    refine recorded.trans ?_
    rw [← ended, List.flatMap_map, List.flatMap_map]
    exact List.flatMap_congr fun report _ => records_reported strip report

/-- A listing has a line for each ended segment of the stream, in order, and one for what is open at
its end. So it depends on the bytes of the stream and on nothing else: not on how they are cut into
chunks, be these of one size or not. -/
theorem listing_follows_bytes (strip : Bool) :
    (∀ reads : List Bytes, Listed strip reads.flatten (Listing.ofChunks strip reads)) ∧
      (∀ size stream, Listed strip stream (Listing.ofChunks strip (chunks size stream))) ∧
      ∀ reads others : List Bytes, reads.flatten = others.flatten →
        Listing.ofChunks strip reads = Listing.ofChunks strip others := by
  have listed := listed_ofChunks strip
  refine ⟨listed, fun size stream => ?_, fun reads others same => ?_⟩
  · have whole := listed (chunks size stream)
    rwa [flatten_chunks] at whole
  · exact (listed reads).unique (same ▸ listed others)

/-- The first frame decodes to zeros alone, which are stripped, and the third is no codeword. -/
theorem listing_follows_bytes_three_reads :
    let reads : List Bytes := [[0x7f, 0, 1, 2, 3], [4, 5, 6, 7, 0x80, 0, 0xff], [0, 5]]
    (Listing.ofChunks true reads).lines =
      ["#0     enc=1    dec=7    ok",
        "#1     enc=8    dec=8    ok          01 02 03 04 05 06 07",
        "#2     enc=1    dec=0    malformed   ff",
        "1 trailing bytes without separator"] ∧
      SegmentLine true 2 [0xff] "#2     enc=1    dec=0    malformed   ff".toList ∧
      Listing.ofChunks true [reads.flatten] = Listing.ofChunks true reads := by
  have lines : (Listing.ofChunks true
      [[0x7f, 0, 1, 2, 3], [4, 5, 6, 7, 0x80, 0, 0xff], [0, 5]]).lines =
      ["#0     enc=1    dec=7    ok",
        "#1     enc=8    dec=8    ok          01 02 03 04 05 06 07",
        "#2     enc=1    dec=0    malformed   ff",
        "1 trailing bytes without separator"] := by decide +kernel
  intro reads
  obtain ⟨listed, _, same⟩ := listing_follows_bytes true
  obtain ⟨line, found, written⟩ := (listed reads).line 2 [0xff] (by decide +kernel)
  rw [lines] at found
  obtain rfl := Option.some.inj found
  exact ⟨lines, written, same [reads.flatten] reads List.flatten_singleton⟩

end ZeroFrame.Command
