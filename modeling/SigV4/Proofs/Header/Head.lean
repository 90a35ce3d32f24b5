import SigV4.Proofs.Header.Insertion

/-!
# SigV4.Proofs.Header.Head

Heads of requests, as they are sent and as they are read.

* `headText`           — a first line, header lines and what follows them, with line ends of any kind.
* `headLines_headText` — however the lines end, the reader finds the same lines.
* `insertLines_sent`   — it inserts the header lines in their order and stops at the first empty line.
* `head_reads_fields`  — behind a first line that names the protocol, just the header lines are read,
  and no line without a colon is passed over.
* `ofHead_bare_iff`    — a head without a request line loses its first header where the value of that
  one names the protocol, and no header anywhere else.
* `bareHead_reads_fields` — so with blocks that are read back from their own text.
-/

namespace SigV4

/-! ## Sent lines -/

/-- How a line ends. -/
inductive LineEnd where
  | feed
  | returnFeed

namespace LineEnd

/-- What stands before the line feed. -/
def mark : LineEnd → Text
  | feed => []
  | returnFeed => ['\r']

def text (e : LineEnd) : Text := e.mark ++ ['\n']

end LineEnd

/-- A header line as it is sent, and how the line before it ends. -/
structure SentLine where
  before : LineEnd
  name : Text
  value : Text

namespace SentLine

def pair (l : SentLine) : Text × Text := (l.name, l.value)

/-- What can be inserted, and is one line together with its name. -/
structure Valid (l : SentLine) : Prop extends HeaderBlock.Insertable l.name l.value where
  unbroken : '\r' ∉ l.name ∧ '\n' ∉ l.name

instance (l : SentLine) : Decidable l.Valid :=
  decidable_of_iff (HeaderBlock.Insertable l.name l.value ∧ '\r' ∉ l.name ∧ '\n' ∉ l.name)
    ⟨fun h => ⟨h.1, h.2⟩, fun h => ⟨h.toInsertable, h.unbroken⟩⟩

/-- Neither a blank nor a character of a token: such a one is in no name. -/
theorem Valid.not_mem_name {l : SentLine} (h : l.Valid) {c : Char} (htoken : isTokenChar c = false)
    (hblank : isBlank c = false) : c ∉ l.name := by
  intro hc
  rcases mem_trim_or_blank hc with hmem | hb
  · rw [List.all_eq_true.1 h.name.chars c hmem] at htoken
    cases htoken
  · rw [hb] at hblank
    cases hblank

theorem Valid.not_mem_line {l : SentLine} (h : l.Valid) :
    '\r' ∉ HeaderBlock.line l.pair ∧ '\n' ∉ HeaderBlock.line l.pair := by
  simp only [HeaderBlock.line, pair, List.mem_append, List.mem_cons, not_or]
  exact ⟨⟨h.unbroken.1, by decide, h.value.1⟩, h.unbroken.2, by decide, h.value.2⟩

end SentLine

/-- What follows the last header line. -/
inductive HeadEnd where
  | inputEnd
  | lineEnd (e : LineEnd)
  | emptyLine (e e' : LineEnd) (body : Text)

namespace HeaderBlock

/-! ## Lines of a head -/

/-- The lines of a head, each without a carriage return at its end. -/
def headLines (head : Text) : List Text := (head.splitOn '\n').map dropReturn

end HeaderBlock

namespace HeadEnd

def text : HeadEnd → Text
  | inputEnd => []
  | lineEnd e => e.text
  | emptyLine e e' body => e.text ++ e'.text ++ body

/-- What the reader finds behind the last header line: nothing, or an empty line first. -/
def lines : HeadEnd → List Text
  | inputEnd => []
  | lineEnd _ => [[]]
  | emptyLine _ _ body => [] :: HeaderBlock.headLines body

end HeadEnd

namespace HeaderBlock

/-- A head as it is sent. -/
def headText (first : Text) (sent : List SentLine) (stop : HeadEnd) : Text :=
  first ++ sent.flatMap (fun l => l.before.text ++ line l.pair) ++ stop.text

theorem dropReturn_mark {l : Text} (h : '\r' ∉ l) (e : LineEnd) : dropReturn (l ++ e.mark) = l := by
  cases e with
  | feed =>
    rw [LineEnd.mark, List.append_nil]
    exact dropReturn_eq h
  | returnFeed => exact dropReturn_concat l

theorem headLines_cons {l : Text} (h : '\n' ∉ l) (e : LineEnd) (rest : Text) :
    headLines (l ++ e.text ++ rest) = dropReturn (l ++ e.mark) :: headLines rest := by
  have hmark : '\n' ∉ l ++ e.mark := by
    rw [List.mem_append]
    cases e with
    | feed => exact not_or_intro h List.not_mem_nil
    | returnFeed => exact not_or_intro h (by decide)
  rw [headLines, LineEnd.text, ← List.append_assoc, List.append_assoc (l ++ e.mark),
    List.singleton_append, List.splitOn_append_cons_self_of_not_mem hmark, List.map_cons, headLines]

theorem headLines_last {l : Text} (h : '\n' ∉ l) (stop : HeadEnd) :
    ∃ e : LineEnd, headLines (l ++ stop.text) = dropReturn (l ++ e.mark) :: stop.lines := by
  cases stop with
  | inputEnd =>
    refine ⟨.feed, ?_⟩
    rw [HeadEnd.text, LineEnd.mark, List.append_nil, headLines,
      List.splitOn_eq_singleton h]
    rfl
  | lineEnd e =>
    refine ⟨e, ?_⟩
    have hlines := headLines_cons h e []
    rwa [List.append_nil] at hlines
  | emptyLine e e' body =>
    refine ⟨e, ?_⟩
    rw [HeadEnd.text, List.append_assoc e.text, ← List.append_assoc, headLines_cons h e,
      ← List.nil_append e'.text, headLines_cons List.not_mem_nil e',
      dropReturn_mark List.not_mem_nil e']
    rfl

/-- However the lines end, the header lines are found as they were written. Only the first line may
lose a carriage return of its own. -/
theorem headLines_headText {sent : List SentLine} (hsent : ∀ l ∈ sent, l.Valid) (stop : HeadEnd) :
    ∀ {first : Text}, '\n' ∉ first →
      ∃ e : LineEnd, headLines (headText first sent stop) =
        dropReturn (first ++ e.mark) :: (sent.map (fun l => line l.pair) ++ stop.lines) := by
  induction sent with
  | nil =>
    intro first hfirst
    rw [headText, List.flatMap_nil, List.append_nil]
    exact headLines_last hfirst stop
  | cons l rest ih =>
    intro first hfirst
    obtain ⟨hl, hrest⟩ := List.forall_mem_cons.1 hsent
    obtain ⟨e, hlines⟩ := ih hrest hl.not_mem_line.2
    refine ⟨l.before, ?_⟩
    have htext : headText first (l :: rest) stop =
        first ++ l.before.text ++ headText (line l.pair) rest stop := by
      simp only [headText, List.flatMap_cons, List.append_assoc]
    rw [htext, headLines_cons hfirst, hlines, dropReturn_mark hl.not_mem_line.1]
    rfl

/-! ## Reading -/

theorem insertLines_cons {l : Text} (hne : l ≠ []) (h : HeaderBlock) (rest : List Text) :
    h.insertLines (l :: rest) =
      match cut [':'] l with
      | none => .error (.headLineWithoutColon l)
      | some (name, value) =>
        match h.insert name value with
        | .error e => .error e
        | .ok h' => h'.insertLines rest := by
  cases l with
  | nil => exact absurd rfl hne
  | cons c l => rfl

/-- Header lines are inserted in their order, up to the first empty line. -/
theorem insertLines_sent {sent : List SentLine} (hsent : ∀ l ∈ sent, l.Valid) (stop : HeadEnd) :
    ∀ h : HeaderBlock, h.insertLines (sent.map (fun l => line l.pair) ++ stop.lines) =
      h.insertAll (sent.map SentLine.pair) := by
  induction sent with
  | nil =>
    intro h
    cases stop <;> rfl
  | cons l rest ih =>
    intro h
    obtain ⟨hl, hrest⟩ := List.forall_mem_cons.1 hsent
    have hne : line l.pair ≠ [] := List.append_ne_nil_of_right_ne_nil _ (List.cons_ne_nil _ _)
    have hcut : cut [':'] (line l.pair) = some (l.name, l.value) :=
      cut_mark (hl.not_mem_name (by decide) (by decide)) l.value
    rw [List.map_cons, List.cons_append, insertLines_cons hne, hcut, List.map_cons, insertAll]
    cases hone : h.insert l.name l.value with
    | error e => simp only [SentLine.pair, hone]
    | ok h' =>
      simp only [SentLine.pair, hone]
      exact ih hrest h'

/-- A line without a colon is refused, if no other refusal comes first. -/
theorem exists_error_of_uncut {ls : List Text} :
    ∀ {h : HeaderBlock}, (∃ l ∈ ls.takeWhile (· ≠ []), ':' ∉ l) →
      ∃ e, h.insertLines ls = .error e := by
  induction ls with
  | nil =>
    rintro h ⟨l, hl, -⟩
    cases hl
  | cons l rest ih =>
    rintro h ⟨l', hl', hcolon⟩
    by_cases hne : l = []
    · rw [List.takeWhile_cons_of_neg (by simpa using hne)] at hl'
      cases hl'
    · rw [List.takeWhile_cons_of_pos (by simpa using hne)] at hl'
      rw [insertLines_cons hne]
      cases hcut : cut [':'] l with
      | none => exact ⟨_, rfl⟩
      | some p =>
        have hmem : ':' ∈ l := by
          rw [append_of_cut hcut]
          simp
        have hrest : l' ∈ rest.takeWhile (· ≠ []) :=
          (List.mem_cons.1 hl').resolve_left fun heq => hcolon (heq ▸ hmem)
        cases hone : h.insert p.1 p.2 with
        | error e => exact ⟨e, by simp only [hone]⟩
        | ok h' =>
          simp only [hone]
          exact ih ⟨l', hrest, hcolon⟩

/-! ## Heads with a request line -/

/-- What names the protocol in a request line. -/
def protocolMark : Text := " HTTP/".toList

theorem isRequestLine_iff {l : Text} : isRequestLine l = true ↔ protocolMark <:+: l :=
  cut_isSome_iff

theorem ofHead_eq (head : Text) :
    ofHead head = empty.insertLines (dropRequestLine (headLines head)) := rfl

theorem dropRequestLine_of_mark {first : Text} (h : protocolMark <:+: first) (rest : List Text) :
    dropRequestLine (dropReturn first :: rest) = rest := by
  have hreturn : '\r' ∉ protocolMark := by decide
  rw [dropRequestLine, if_pos (isRequestLine_iff.2 (infix_dropReturn hreturn h))]

theorem ofHead_of_requestLine {first : Text} (hmark : protocolMark <:+: first) (hfirst : '\n' ∉ first)
    {sent : List SentLine} (hsent : ∀ l ∈ sent, l.Valid) (stop : HeadEnd) :
    ofHead (headText first sent stop) = empty.insertAll (sent.map SentLine.pair) := by
  obtain ⟨e, hlines⟩ := headLines_headText hsent stop hfirst
  rw [ofHead_eq, hlines, dropRequestLine_of_mark (hmark.trans (List.prefix_append _ _).isInfix)]
  exact insertLines_sent hsent stop _

theorem insertAll_sent {sent : List SentLine} (hsent : ∀ l ∈ sent, l.Valid) :
    empty.insertAll (sent.map SentLine.pair) = .ok (afterCalls (sent.map SentLine.pair)) := by
  refine insertAll_eq_ok.2 ⟨fun p hp => ?_, rfl⟩
  obtain ⟨l, hl, rfl⟩ := List.mem_map.1 hp
  exact (hsent l hl).toInsertable

/-- Behind a first line that names the protocol, the header lines of a head are read just as they
would be inserted one by one: whatever ends the lines, and whatever follows the empty line or the end
of input. A line among them that has no colon is never passed over. -/
theorem head_reads_fields :
    (∀ (first : Text) (sent : List SentLine) (stop : HeadEnd), protocolMark <:+: first →
      '\n' ∉ first → (∀ l ∈ sent, l.Valid) →
      ofHead (headText first sent stop) = .ok (afterCalls (sent.map SentLine.pair)) ∧
        empty.insertAll (sent.map SentLine.pair) = .ok (afterCalls (sent.map SentLine.pair))) ∧
    ∀ first rest : Text, protocolMark <:+: first → '\n' ∉ first →
      (∃ l ∈ (headLines rest).takeWhile (· ≠ []), ':' ∉ l) →
      ∃ e, ofHead (first ++ '\n' :: rest) = .error e := by
  refine ⟨fun first sent stop hmark hfirst hsent => ?_, fun first rest hmark hfirst huncut => ?_⟩
  · rw [ofHead_of_requestLine hmark hfirst hsent]
    exact ⟨insertAll_sent hsent, insertAll_sent hsent⟩
  · have hlines : headLines (first ++ '\n' :: rest) = dropReturn first :: headLines rest := by
      rw [headLines, List.splitOn_append_cons_self_of_not_mem hfirst, List.map_cons, headLines]
    rw [ofHead_eq, hlines, dropRequestLine_of_mark hmark]
    exact exists_error_of_uncut huncut

/-- Header lines behind line ends of both kinds: blanks around a name, and a name given twice. -/
def noteLines : List SentLine := [
  { before := .returnFeed, name := "Note ".toList, value := " a  b ".toList },
  { before := .feed, name := "Host".toList, value := "v:1".toList },
  { before := .returnFeed, name := "note".toList, value := " HTTP/".toList }]

theorem noteHead_read :
    headText "GET / HTTP/1.1".toList noteLines (.emptyLine .feed .returnFeed "x:y\nz".toList) =
        "GET / HTTP/1.1\r\nNote : a  b \nHost:v:1\r\nnote: HTTP/\n\r\nx:y\nz".toList ∧
      (∀ l ∈ noteLines, l.Valid) ∧
      (∃ h, ofHead (headText "GET / HTTP/1.1".toList noteLines
          (.emptyLine .feed .returnFeed "x:y\nz".toList)) = .ok h ∧
        empty.insertAll (noteLines.map SentLine.pair) = .ok h ∧
        h.text = "host:v:1\nnote:a b,HTTP/\n".toList) ∧
      ∃ e, ofHead "GET / HTTP/1.1\nhost:v\nnote\n\n".toList = .error e := by
  have hvalid : ∀ l ∈ noteLines, l.Valid := by decide +kernel
  obtain ⟨hread, hrefused⟩ := head_reads_fields
  obtain ⟨hok, hpairs⟩ := hread "GET / HTTP/1.1".toList noteLines
    (.emptyLine .feed .returnFeed "x:y\nz".toList) (by decide +kernel) (by decide +kernel) hvalid
  refine ⟨by decide +kernel, hvalid, ⟨_, hok, hpairs, by decide +kernel⟩, ?_⟩
  exact hrefused "GET / HTTP/1.1".toList "host:v\nnote\n\n".toList (by decide +kernel)
    (by decide +kernel) ⟨"note".toList, by decide +kernel, by decide +kernel⟩

/-! ## Heads without a request line -/

/-- The protocol is named in the value, as no name has a slash. -/
theorem mark_line_iff {l : SentLine} (h : l.Valid) :
    protocolMark <:+: line l.pair ↔ protocolMark <:+: l.value := by
  have hcolon : ':' ∉ protocolMark := by decide
  have hslash : '/' ∈ protocolMark := by decide
  rw [line, infix_append_mark hcolon]
  refine or_iff_right fun hname => ?_
  exact h.not_mem_name (by decide) (by decide) (hname.subset hslash)

theorem dropRequestLine_of_no_mark {first : Text} (h : ¬ protocolMark <:+: first)
    (rest : List Text) : dropRequestLine (first :: rest) = first :: rest := by
  rw [dropRequestLine, if_neg fun hline => h (isRequestLine_iff.1 hline)]

/-- The first of the header lines is taken for a request line just if its value names the
protocol. -/
theorem ofHead_bare {l : SentLine} (hl : l.Valid) {sent : List SentLine}
    (hsent : ∀ l ∈ sent, l.Valid) (stop : HeadEnd) :
    (protocolMark <:+: l.value → ofHead (headText (line l.pair) sent stop) =
      .ok (afterCalls (sent.map SentLine.pair))) ∧
    (¬ protocolMark <:+: l.value → ofHead (headText (line l.pair) sent stop) =
      .ok (afterCalls ((l :: sent).map SentLine.pair))) := by
  rw [← mark_line_iff hl]
  constructor
  · intro hmark
    rw [ofHead_of_requestLine hmark hl.not_mem_line.2 hsent]
    exact insertAll_sent hsent
  · intro hmark
    obtain ⟨e, hlines⟩ := headLines_headText hsent stop hl.not_mem_line.2
    have hall : ∀ l' ∈ l :: sent, l'.Valid := List.forall_mem_cons.2 ⟨hl, hsent⟩
    rw [ofHead_eq, hlines, dropReturn_mark hl.not_mem_line.1, dropRequestLine_of_no_mark hmark,
      ← insertAll_sent hall, ← insertLines_sent hall stop]
    rfl

/-- One more value in front of some is never the same value. -/
theorem merged_cons_ne (v : Text) (l : List Text) : merged (v :: l) ≠ merged l := by
  cases l with
  | nil => exact Option.some_ne_none _
  | cons w rest =>
    intro heq
    have hlen := congrArg List.length (Option.some.inj heq)
    rw [join, List.intercalate_cons_cons, List.length_append, List.length_append] at hlen
    simp at hlen

/-- Without its first header a head never gives the same block. -/
theorem ofHead_bare_iff {l : SentLine} (hl : l.Valid) {sent : List SentLine}
    (hsent : ∀ l ∈ sent, l.Valid) (stop : HeadEnd) :
    ofHead (headText (line l.pair) sent stop) = .ok (afterCalls ((l :: sent).map SentLine.pair)) ↔
      ¬ protocolMark <:+: l.value := by
  obtain ⟨hlost, hkept⟩ := ofHead_bare hl hsent stop
  refine ⟨fun hok hmark => ?_, hkept⟩
  have hsame := Except.ok.inj ((hlost hmark).symm.trans hok)
  have hshort := afterCalls_merges (sent.map SentLine.pair) (signedPair l.pair).1
  have hinsertable : Insertable l.pair.1 l.pair.2 := hl.toInsertable
  rw [hsame, afterCalls_merges, List.map_cons, acceptedPairs_cons, if_pos hinsertable, under_cons,
    if_pos rfl] at hshort
  exact merged_cons_ne _ _ hshort

/-! ## Blocks read as heads -/

theorem lookup_eq_merged {l : List (Text × Text)} (hl : l.Pairwise fun p q => p.1 < q.1) (k : Text) :
    l.lookup k = merged (under k l) := by
  induction l with
  | nil => rfl
  | cons p rest ih =>
    obtain ⟨hp, hrest⟩ := List.pairwise_cons.1 hl
    rw [under_cons, List.lookup_cons]
    by_cases hk : p.1 = k
    · have hnone : under k rest = [] := by
        rw [List.eq_nil_iff_forall_not_mem]
        intro v hv
        have hlt := hp _ (mem_under.1 hv)
        rw [hk] at hlt
        exact List.lt_irrefl k hlt
      rw [if_pos hk, hnone, ← hk, beq_self_eq_true]
      exact congrArg some (List.intercalate_singleton ..).symm
    · rw [if_neg hk, beq_false_of_ne (Ne.symm hk)]
      exact ih hrest

/-- A block merges its own entries. -/
theorem merges_entries (h : HeaderBlock) : h.Merges h.map.entries :=
  lookup_eq_merged h.map.ascending

/-- The entries of a block as lines that are sent. -/
def sentEntries (entries : List (Text × Text)) : List SentLine :=
  entries.map fun p => { before := .feed, name := p.1, value := p.2 }

theorem sentEntries_cons (p : Text × Text) (rest : List (Text × Text)) :
    sentEntries (p :: rest) = { before := .feed, name := p.1, value := p.2 } :: sentEntries rest :=
  rfl

theorem pairs_sentEntries (entries : List (Text × Text)) :
    (sentEntries entries).map SentLine.pair = entries := by
  rw [sentEntries, List.map_map]
  exact List.map_id _

/-- The entries of a block can be sent, and inserting them changes nothing about them. -/
theorem WellFormed.valid_entry {h : HeaderBlock} (hw : h.WellFormed) {p : Text × Text}
    (hp : p ∈ h.map.entries) :
    SentLine.Valid { before := .feed, name := p.1, value := p.2 } ∧ signedPair p = p := by
  have hread := FieldName.ofText?_trim ⟨p.1, hw.names p hp⟩
  have hvalue := hw.values p hp
  have hbreak {c : Char} (hc : breaksLine c = true) : c ∉ p.1 ∧ c ∉ p.2 :=
    hw.fitToSign.unbroken p hp c hc
  refine ⟨⟨⟨FieldName.exists_ofText?_iff.1 ⟨_, hread⟩, (hbreak rfl).2, (hbreak rfl).2⟩,
    (hbreak rfl).1, (hbreak rfl).1⟩, ?_⟩
  exact Prod.ext (FieldName.text_of_ofText? hread).symm (collapse_of_collapsed hvalue)

theorem acceptedPairs_entries {entries : List (Text × Text)}
    (h : ∀ p ∈ entries, Insertable p.1 p.2 ∧ signedPair p = p) : acceptedPairs entries = entries := by
  rw [acceptedPairs_of_insertable fun p hp => (h p hp).1]
  exact (List.map_congr_left fun p hp => (h p hp).2).trans (List.map_id _)

theorem text_eq_headText {h : HeaderBlock} {p : Text × Text} {rest : List (Text × Text)}
    (hentries : h.map.entries = p :: rest) :
    h.text = headText (line p) (sentEntries rest) (.lineEnd .feed) := by
  -- Each line feed is written as the end of the line before it.
  have hshift (l : List (Text × Text)) :
      '\n' :: l.flatMap (fun q => line q ++ ['\n']) =
        (sentEntries l).flatMap (fun s => s.before.text ++ line s.pair) ++ ['\n'] := by
    induction l with
    | nil => rfl
    | cons q l ih =>
      rw [List.flatMap_cons, List.append_assoc, List.singleton_append, ih, sentEntries_cons,
        List.flatMap_cons, List.append_assoc (_ ++ _)]
      rfl
  rw [text_eq, hentries, List.flatMap_cons, List.append_assoc, List.singleton_append, hshift,
    headText, List.append_assoc]
  rfl

theorem ofHead_text_iff {h : HeaderBlock} (hw : h.WellFormed) :
    ofHead h.text = .ok h ↔ ∀ p ∈ h.map.entries.head?, ¬ protocolMark <:+: p.2 := by
  have hentry := fun p hp => hw.valid_entry (p := p) hp
  have hmerges := h.merges_entries
  cases hentries : h.map.entries with
  | nil =>
    have hempty : empty = h := by
      rw [hentries] at hmerges
      exact empty_merges.eq_of_under hmerges fun _ => rfl
    rw [← hempty]
    exact iff_of_true rfl fun p hp => by cases hp
  | cons p rest =>
    rw [hentries] at hentry hmerges
    obtain ⟨⟨hp, -⟩, hrest⟩ := List.forall_mem_cons.1 hentry
    have hsent : ∀ l ∈ sentEntries rest, l.Valid := fun l hl => by
      obtain ⟨q, hq, rfl⟩ := List.mem_map.1 hl
      exact (hrest q hq).1
    have hblock : afterCalls (p :: rest) = h := by
      have hmerged := afterCalls_merges (p :: rest)
      rw [acceptedPairs_entries fun q hq => ⟨(hentry q hq).1.toInsertable, (hentry q hq).2⟩]
        at hmerged
      exact hmerged.eq_of_under hmerges fun _ => rfl
    have hread := ofHead_bare_iff hp hsent (.lineEnd .feed)
    rw [List.map_cons, pairs_sentEntries] at hread
    rw [text_eq_headText hentries, ← hblock, List.head?_cons]
    refine hread.trans ⟨fun hno q hq => ?_, fun hall => hall p rfl⟩
    cases hq
    exact hno

/-- A head without a request line gives all its headers just if the value of the first one does not
name the protocol. If it does, that one is taken for the request line, and only the others are read.
So a reachable block is read back from its own text just if its first value does not name it. -/
theorem bareHead_reads_fields {l : SentLine} (hl : l.Valid) {sent : List SentLine}
    (hsent : ∀ l' ∈ sent, l'.Valid) (stop : HeadEnd) {h : HeaderBlock} (hr : h.Reachable) :
    (ofHead (headText (line l.pair) sent stop) = .ok (afterCalls ((l :: sent).map SentLine.pair)) ↔
        ¬ protocolMark <:+: l.value) ∧
      (protocolMark <:+: l.value → ofHead (headText (line l.pair) sent stop) =
        .ok (afterCalls (sent.map SentLine.pair))) ∧
      empty.insertAll ((l :: sent).map SentLine.pair) =
        .ok (afterCalls ((l :: sent).map SentLine.pair)) ∧
      (ofHead h.text = .ok h ↔ ∀ p ∈ h.map.entries.head?, ¬ protocolMark <:+: p.2) :=
  ⟨ofHead_bare_iff hl hsent stop, (ofHead_bare hl hsent stop).1,
    insertAll_sent (List.forall_mem_cons.2 ⟨hl, hsent⟩), ofHead_text_iff hr.wellFormed⟩

/-- A header whose value names the protocol. -/
def probeLine : SentLine :=
  { before := .returnFeed, name := "from".toList, value := "probe HTTP/1.1".toList }

def hostLine : SentLine := { before := .feed, name := "host".toList, value := "a.test".toList }

theorem hostLine_reads_on :
    probeLine.Valid ∧ hostLine.Valid ∧
      (∃ h, ofHead "host:a.test\r\nfrom:probe HTTP/1.1".toList = .ok h ∧
        empty.insertAll [hostLine.pair, probeLine.pair] = .ok h) ∧
      ∃ h : HeaderBlock, h.Reachable ∧ h.text = "host:a.test\nvia:a HTTP/1.1\n".toList ∧
        ofHead h.text = .ok h := by
  have hprobe : probeLine.Valid := by decide +kernel
  have hhost : hostLine.Valid := by decide +kernel
  have hr := (Reachable.empty.attempt "via".toList "a HTTP/1.1".toList).attempt
    "host".toList "a.test".toList
  obtain ⟨hread, -, hpairs, hback⟩ :=
    bareHead_reads_fields hhost (List.forall_mem_singleton.2 hprobe) .inputEnd hr
  exact ⟨hprobe, hhost, ⟨_, hread.2 (by decide +kernel), hpairs⟩,
    _, hr, by decide +kernel, hback.2 (by decide +kernel)⟩

/-- The header is lost: from a head that both headers were inserted from, and from the text of the
block that they give. -/
theorem probeLine_lost :
    ∃ h h' : HeaderBlock, h.Reachable ∧
      empty.insertAll [probeLine.pair, hostLine.pair] = .ok h ∧
      h.text = headText (line probeLine.pair) [hostLine] (.lineEnd .feed) ∧
      ofHead h.text = .ok h' ∧ h'.text = "host:a.test\n".toList ∧ h' ≠ h := by
  have hr := (Reachable.empty.attempt probeLine.name probeLine.value).attempt
    hostLine.name hostLine.value
  exact ⟨_, _, hr, rfl, by decide +kernel, rfl, by decide +kernel, by decide +kernel⟩

end HeaderBlock
end SigV4
