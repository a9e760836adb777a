/-
Module: GhostPour.Shares.ShareBundle
Layer: Model
Purpose: The reader of a share's archive (`read_bundle`, `_read_bounded`, `_json` and `decode_report` of
  `app/services/share_bundle.py`). An entry is the central directory's record of it with the chunks the zip
  library decompresses; opening it or a read of it may raise. What is decompressed and returned is counted
  beside the budget. The base64 decoder and the date of a record, which is read off a float, are parameters.
  How the share page lines a transcript up with its segments (`_norm`, `_strip_label`,
  `group_segments_by_transcript_lines` and `align_rendition` of `app/services/share_bundle.py`). The warning
  that is logged where nothing lines up is left out. The markdown of the share page's summary (`_esc`,
  `_md_inline` and `render_markdown` of `app/services/share_bundle.py`). The text is escaped first and cut
  into lines; each line becomes a list item, a heading, a paragraph or nothing, and five rewrites run over its
  content. The arguments that `_md_inline` is called with are named, so that what is said about them can be
  said of the page.
Trusted boundary: human-reviewed spec
Main exports: Chunk, Entry, Tally, readLoop, readBounded, jsonOf, Bundle, isMeetingName, readMeetings,
  readBundle, renditionLines, norm, stripLabel, keptSegments, spokenLines, takeRun, groupLines,
  groupSegmentsByTranscriptLines, alignRendition, esc, emphasised, link, linkText, mdInline, Block, blockOf,
  renderMarkdown, inlined
-/
import GhostPour.Library.IsoText
import GhostPour.Library.Json
import GhostPour.Library.Regex
import Mathlib.Data.List.Dedup

namespace GhostPour.Shares

/-! ### Bounds -/

/-- `MAX_ENTRIES`. -/
def maxEntries : Nat := 10000

/-- `MAX_ENTRY_BYTES`. -/
def maxEntryBytes : Nat := 32 * 1024 * 1024

/-- `MAX_TOTAL_READ_BYTES`. -/
def maxTotalReadBytes : Nat := 128 * 1024 * 1024

/-- `_CHUNK`. -/
def chunkBytes : Nat := 64 * 1024

/-! ### Archives -/

/-- What one `fh.read(_CHUNK)` decompresses before the end of an entry. -/
structure Chunk where
  bytes : List UInt8
  nonempty : bytes ≠ []
  short : bytes.length ≤ chunkBytes

/-- An entry: its name, the size its record declares, its chunks, and whether the library raises after
them rather than report the end. -/
structure Entry where
  name : PyStr
  fileSize : Nat
  chunks : List Chunk
  raises : Bool

/-- `zf.getinfo(name)`: the last entry of a name; `none` is the `KeyError`. -/
def getinfo (archive : List Entry) (name : PyStr) : Option Entry :=
  archive.reverse.find? fun e => e.name = name

/-! ### Reading an entry -/

/-- The budget that is left; beside it, the bytes decompressed and those returned so far. -/
structure Tally where
  budget : Nat
  decompressed : Nat
  returned : Nat

/-- Before the first entry. -/
def Tally.start : Tally := ⟨maxTotalReadBytes, 0, 0⟩

/-- Why `read_bundle` raises: `ShareBundleTooLarge`, or what the zip library raised. -/
inductive BundleError where
  | tooLarge (message : PyStr)
  | library

/-- What reading comes to, with what it leaves of the budget. -/
abbrev Reading (α : Type) := Except BundleError α × Tally

/-- The loop of `_read_bounded`: its result, `none` past the cap, and the bytes it decompressed. -/
def readLoop (cap : Nat) (raises : Bool) (buf : List UInt8) :
    List Chunk → Except BundleError (Option (List UInt8)) × Nat
  | [] => (if raises then .error .library else .ok (some buf), 0)
  | chunk :: rest =>
      let buf := buf ++ chunk.bytes
      if cap < buf.length then (.ok none, chunk.bytes.length)
      else
        let read := readLoop cap raises buf rest
        (read.1, chunk.bytes.length + read.2)

/-- `_read_bounded`. -/
def readBounded (archive : List Entry) (name : PyStr) (t : Tally) : Reading (Option (List UInt8)) :=
  match getinfo archive name with
  | none => (.ok none, t)
  | some entry =>
      if maxEntryBytes < entry.fileSize then (.ok none, t)
      else
        let cap := min maxEntryBytes t.budget
        let read := readLoop cap entry.raises [] entry.chunks
        let t := { t with decompressed := t.decompressed + read.2 }
        match read.1 with
        | .ok (some buf) =>
            (.ok (some buf),
              { t with budget := t.budget - buf.length, returned := t.returned + buf.length })
        | .ok none => (.ok none, t)
        | .error e => (.error e, t)

/-- `raw.decode("utf-8")`. -/
def decodeUtf8 (raw : List UInt8) : Option PyStr :=
  (String.fromUTF8? ⟨raw.toArray⟩).map fun s => s.toList.map Char.toNat

section
variable [PyRuntime]

/-- `_json`: null stands for `None`. -/
def jsonOf (archive : List Entry) (name : PyStr) (t : Tally) : Reading Json :=
  match readBounded archive name t with
  | (.error e, t) => (.error e, t)
  | (.ok none, t) => (.ok .null, t)
  | (.ok (some raw), t) => (.ok (((decodeUtf8 raw).bind loads).getD .null), t)

/-! ### Reading a bundle -/

variable (b64decode : PyStr → Option (List UInt8)) (appleDate : Json → Option Instant)

/-- `decode_report`. -/
def decodeReport : Json → Json
  | .str data =>
      if data.isEmpty then .null
      else (((b64decode data).bind decodeUtf8).bind loads).getD .null
  | _ => .null

/-- A meeting of a bundle. -/
structure MeetingRecord where
  originId : PyStr
  record : List (PyStr × Json)
  report : Json
  startedAt : Option Instant

/-- What `read_bundle` returns. -/
structure Bundle where
  manifest : Json
  project : Json
  meetings : List MeetingRecord

/-- The entry of a meeting. -/
def meetingOf (name : PyStr) (record : List (PyStr × Json)) : MeetingRecord where
  originId := (name.take (name.length - (py ".json").length)).drop (py "meetings/").length
  record := record
  report := decodeReport b64decode (Dict.get record (py "reportJSONData"))
  startedAt := appleDate (Dict.get record (py "date"))

omit [PyRuntime] in
/-- Whether a name is a meeting's. -/
def isMeetingName (name : PyStr) : Bool :=
  startsWith (py "meetings/") name && endsWith (py ".json") name && name.count '/'.toNat == 1

/-- The loop of `read_bundle` over the names of meetings. -/
def readMeetings (archive : List Entry) : List PyStr → Tally → Reading (List MeetingRecord)
  | [], t => (.ok [], t)
  | name :: names, t =>
      match jsonOf archive name t with
      | (.error e, t) => (.error e, t)
      | (.ok (.obj record), t) =>
          let rest := readMeetings archive names t
          (rest.1.map (meetingOf b64decode appleDate name record :: ·), rest.2)
      | (.ok _, t) => readMeetings archive names t

/-- An entry that is read where it is there. -/
def jsonIfPresent (archive : List Entry) (names : List PyStr) (name : PyStr) (t : Tally) : Reading Json :=
  if name ∈ names then jsonOf archive name t else (.ok .null, t)

/-- `read_bundle`. -/
def readBundle (archive : List Entry) : Reading Bundle :=
  if maxEntries < archive.length then
    (.error (.tooLarge (strOfNat archive.length ++ py " entries")), Tally.start)
  else
    let names := (archive.map Entry.name).dedup
    match jsonIfPresent archive names (py "manifest.json") Tally.start with
    | (.error e, t) => (.error e, t)
    | (.ok manifest, t) =>
        match jsonIfPresent archive names (py "project.json") t with
        | (.error e, t) => (.error e, t)
        | (.ok project, t) =>
            let meetingNames := (sortStrs names).filter isMeetingName
            let meetings := readMeetings b64decode appleDate archive meetingNames t
            (meetings.1.map fun meetings => ⟨manifest, project, meetings⟩, meetings.2)

end

end GhostPour.Shares

namespace GhostPour.Shares

/-- `_rendition_lines`. -/
def renditionLines (text : PyStr) : List PyStr :=
  ((splitlines text).filter fun ln => !(strip ln).isEmpty).map strip

/-- `_strip_label`. -/
def stripLabel (line : PyStr) : PyStr :=
  let line := strip line
  if startsWith (py "[") line && isIn (py "]") line then
    strip ((line.dropWhile (· != ']'.toNat)).drop 1)
  else line

/-- The text of a segment: a dict with a text that is not blank. -/
def segmentText : Json → Option PyStr
  | .obj seg =>
      match Dict.get seg (py "text") with
      | .str text => if (strip text).isEmpty then none else some text
      | _ => none
  | _ => none

/-- The segments with a text, each at its index. -/
def keptSegments (segments : List Json) : List (Nat × PyStr) :=
  segments.zipIdx.filterMap fun seg => (segmentText seg.1).map fun text => (seg.2, text)

/-- The lines of a transcript without their labels. -/
def spokenLines (transcript : PyStr) : List PyStr :=
  ((splitlines transcript).filter fun l => !(strip l).isEmpty).map stripLabel

section
variable [PyRuntime]

/-- `_norm`. -/
def norm (t : PyStr) : PyStr := lower (join (py " ") (words t))

/-- The inner loop: the indexes taken for a line, the text accumulated, and the segments that are left. -/
def takeRun (target acc : PyStr) : List (Nat × PyStr) → List Nat × PyStr × List (Nat × PyStr)
  | [] => ([], acc, [])
  | (i, text) :: rest =>
      let next := strip (acc ++ (py " " ++ text))
      let cand := norm next
      if startsWith cand target then
        if cand = target then ([i], next, rest)
        else
          let later := takeRun target next rest
          (i :: later.1, later.2)
      else ([], acc, (i, text) :: rest)

/-- The outer loop. -/
def groupLines : List PyStr → List (Nat × PyStr) → Option (List (List Nat))
  | [], kept => if kept.isEmpty then some [] else none
  | line :: lines, kept =>
      let target := norm line
      let taken := takeRun target [] kept
      if taken.1.isEmpty ∨ norm taken.2.1 ≠ target then none
      else (groupLines lines taken.2.2).map (taken.1 :: ·)

/-- `group_segments_by_transcript_lines`. -/
def groupSegmentsByTranscriptLines (transcript : PyStr) (segments : List Json) :
    Option (List (List Nat)) :=
  let kept := keptSegments segments
  let lines := spokenLines transcript
  if lines.isEmpty || kept.isEmpty then none else groupLines lines kept

/-- `align_rendition`. -/
def alignRendition (rendition : List (PyStr × Json)) (segments : List Json) (transcript : PyStr) :
    Option (List (List Nat × PyStr)) :=
  let text := match Dict.get rendition (py "transcript") with
    | .str text => text
    | _ => []
  let lines := renditionLines text
  let kept := (keptSegments segments).map Prod.fst
  if lines.isEmpty then none
  else if lines.length = kept.length then some ((kept.map fun i => [i]).zip (lines.map stripLabel))
  else
    match groupSegmentsByTranscriptLines transcript segments with
    | some groups =>
        if groups.length = lines.length then some (groups.zip (lines.map stripLabel)) else none
    | none => none

end

end GhostPour.Shares

namespace GhostPour.Shares

open Regex

/-- The replacements of `_esc`, in their order. -/
def entities : List (Nat × PyStr) :=
  [(38, py "&amp;"), (60, py "&lt;"), (62, py "&gt;"), (34, py "&quot;"), (39, py "&#39;")]

/-- `_esc`. -/
def esc (s : PyStr) : PyStr := entities.foldl (fun s e => replaceChar e.1 e.2 s) s

/-! ### Inline markdown -/

/-- `r+?`. -/
def plusLazy (r : Regex) : Regex := .seq r (.manyLazy r)

/-- `\*\*(.+?)\*\*`. -/
def starBold : Regex := seqs [lit "**".toList, .group 1 (plusLazy dot), lit "**".toList]

/-- `__(.+?)__`. -/
def lineBold : Regex := seqs [lit "__".toList, .group 1 (plusLazy dot), lit "__".toList]

/-- The code pattern: one backtick, no backtick, one backtick. -/
def codeSpan : Regex :=
  seqs [.set (· == 96), .group 1 (plusLazy (.set (· != 96))), .set (· == 96)]

/-- `\[([^\]]+)\]\(([^)\s]+)\)`. -/
def link : Regex :=
  seqs [lit "[".toList, .group 1 (plus (noneOf "]")), lit "](".toList,
    .group 2 (plus (.set fun c => !(c == ')'.toNat) && !isSpace c)), lit ")".toList]

/-- A tag and its end around a content. -/
def element (name content : PyStr) : PyStr :=
  py "<" ++ name ++ py ">" ++ content ++ (py "</" ++ name ++ py ">")

/-- One rewrite: the first group in an element. -/
def emphasise (r : Regex) (name t : PyStr) : PyStr :=
  subWith r (fun m => element name ((m.group 1).getD [])) t

/-- Whether a link is one to the web. -/
def isHttp (url : PyStr) : Bool := startsWith (py "http://") url || startsWith (py "https://") url

/-- `_link`. -/
def linkText (m : Match) : PyStr :=
  let url := (m.group 2).getD []
  if isHttp url then
    py "<a href=\"" ++ esc url ++ py "\" target=\"_blank\" rel=\"noopener nofollow\">" ++
      (m.group 1).getD [] ++ py "</a>"
  else m.text

section
variable [PyRuntime]

/-- `(?<![\*\w])\*(?!\s)(.+?)(?<!\s)\*(?![\*\w])`. -/
def starItalic : Regex :=
  seqs [.test fun prev _ => !prev.any fun c => c == '*'.toNat || isWord c, lit "*".toList,
    .test fun _ after => !after.head?.any isSpace, .group 1 (plusLazy dot),
    .test fun prev _ => !prev.any isSpace, lit "*".toList,
    .test fun _ after => !after.head?.any fun c => c == '*'.toNat || isWord c]

/-- The first four rewrites of `_md_inline`. -/
def emphasised (t : PyStr) : PyStr :=
  let t := emphasise starBold (py "strong") t
  let t := emphasise lineBold (py "strong") t
  let t := emphasise starItalic (py "em") t
  emphasise codeSpan (py "code") t

/-- `_md_inline`. -/
def mdInline (t : PyStr) : PyStr := subWith link linkText (emphasised t)

/-! ### Lines -/

/-- `^(#{1,6})\s+(.*)$`. -/
def heading : Regex :=
  seqs [start, .group 1 (.seq (lit "#".toList) (upTo 5 (lit "#".toList))), plus space,
    .group 2 (.many dot), stop]

/-- `^\s*(?:[-*\u2022]|\d+\.)\s+(.*)$`. -/
def bullet : Regex :=
  seqs [start, .many space,
    .alt (.set fun c => c == '-'.toNat || c == '*'.toNat || c == 0x2022)
      (.seq (plus digit) (lit ".".toList)),
    plus space, .group 1 (.many dot), stop]

/-- What a line is. -/
inductive Block where
  | item (content : PyStr)
  | heading (level : Nat) (content : PyStr)
  | paragraph (content : PyStr)
  | blank

/-- The body of the loop: a bullet before a heading before a paragraph. -/
def blockOf (raw : PyStr) : Block :=
  let line := rstrip raw
  match matchStart bullet line with
  | some b => .item ((b.group 1).getD [])
  | none =>
      match matchStart heading line with
      | some h => .heading (min (((h.group 1).getD []).length + 2) 6) ((h.group 2).getD [])
      | none => if (strip line).isEmpty then .blank else .paragraph line

/-- What `_md_inline` is called with for a line. -/
def Block.content : Block → Option PyStr
  | .item content => some content
  | .heading _ content => some content
  | .paragraph content => some content
  | .blank => none

/-- What a line adds to the page, inside a list or not, and whether a list is open behind it. -/
def addBlock (page : PyStr × Bool) (block : Block) : PyStr × Bool :=
  let closed := page.1 ++ if page.2 then py "</ul>" else []
  match block with
  | .item content =>
      (page.1 ++ (if page.2 then [] else py "<ul>") ++ element (py "li") (mdInline content), true)
  | .heading level content =>
      (closed ++ element (py "h" ++ strOfNat level) (mdInline content), false)
  | .paragraph content => (closed ++ element (py "p") (mdInline content), false)
  | .blank => (closed, false)

/-- The lines of the escaped text, if the text is not blank. -/
def blocks (text : PyStr) : List Block :=
  if (strip text).isEmpty then [] else (splitAt '\n' (esc text)).map blockOf

/-- `render_markdown`. -/
def renderMarkdown (text : PyStr) : PyStr :=
  let page := (blocks text).foldl addBlock ([], false)
  page.1 ++ if page.2 then py "</ul>" else []

/-- What `_md_inline` is called with for a text. -/
def inlined (text : PyStr) : List PyStr := (blocks text).filterMap Block.content

end

end GhostPour.Shares
