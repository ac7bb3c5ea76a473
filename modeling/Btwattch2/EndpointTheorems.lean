/-
Btwattch2.EndpointTheorems — what a scraper makes of the metrics endpoint.

What is written is a response that a client reads back, its body as long as it says
(`readReply_response`). It depends on the bytes of the request alone, not on the pieces
they arrive in (`answered_wellFormed`), and a whole head is read to its end before the
response is written (`answered_over_bytes`).
-/
import Btwattch2.Endpoint
import Btwattch2.Lib.Digits
import Btwattch2.TextTheorems

namespace Btwattch2.Metrics

open Lib

/-! ## The client -/

/-- A response as a client has it. -/
structure Reply where
  status : String
  headers : List (String × String)
  body : String
  deriving DecidableEq

/-- The lines up to the empty one, and what is behind it. -/
def readHead : Nat → List UInt8 → Option (List String × List UInt8)
  | 0, _ => none
  | n + 1, bytes =>
    (Source.cut 0x0A bytes).bind fun (line, rest) =>
      ((lineText line).bind (Text.stripSuffix "\r\n")).bind fun text =>
        if text = "" then some ([], rest)
        else (readHead n rest).map fun (lines, rest) => (text :: lines, rest)

/-- `Name: value`. -/
def readHeader (line : String) : Option (String × String) :=
  (Text.splitOnce ':' line).bind fun (name, value) =>
    (Text.stripPrefix " " value).map fun value => (name, value)

def readLength (value : String) : Option Nat :=
  if value ≠ "" ∧ value.toList.all Char.isDigit then some (digitsValue value.toList) else none

/-- The status, the headers, and a body as long as they say. -/
def readReply (bytes : List UInt8) : Option Reply :=
  match readHead (bytes.length + 1) bytes with
  | some (first :: lines, rest) =>
    (Text.stripPrefix "HTTP/1.1 " first).bind fun status =>
      (lines.mapM readHeader).bind fun headers =>
        ((headers.lookup "Content-Length").bind readLength).bind fun length =>
          if rest.length = length then
            (lineText rest).map fun body => ⟨status, headers, body⟩
          else none
  | _ => none

/-! ## Responses -/

/-- A line of a head: it is not empty and has no newline in it. -/
def HeadLine (line : String) : Prop := line ≠ "" ∧ '\n' ∉ line.toList

def headText (lines : List String) : List Char := lines.flatMap fun line => line.toList ++ ['\r', '\n']

theorem cut_line (line : String) (h : '\n' ∉ line.toList) (rest : List UInt8) :
    Source.cut 0x0A (utf8 (line.toList ++ ['\r', '\n']) ++ rest) =
      some (utf8 (line.toList ++ ['\r', '\n']), rest) := by
  have hsplit : utf8 (line.toList ++ ['\r', '\n']) = utf8 (line.toList ++ ['\r']) ++ [0x0A] := by
    rw [show line.toList ++ ['\r', '\n'] = (line.toList ++ ['\r']) ++ ['\n'] by simp, utf8_append]
    rfl
  have hnewline : (0x0A : UInt8) ∉ utf8 (line.toList ++ ['\r']) :=
    newline_not_mem_utf8 (by simpa using h)
  rw [hsplit, List.append_assoc]
  exact Source.cut_append hnewline rest

theorem lineText_line (line : String) :
    (lineText (utf8 (line.toList ++ ['\r', '\n']))).bind (Text.stripSuffix "\r\n") = some line := by
  have htext : String.ofList (line.toList ++ ['\r', '\n']) = line ++ "\r\n" := by
    rw [← String.toList_inj]
    simp
  rw [lineText, fromUTF8_utf8, htext, Option.bind_some, Text.stripSuffix_append]

theorem readHead_line (line : String) (h : '\n' ∉ line.toList) (n : Nat) (rest : List UInt8) :
    readHead (n + 1) (utf8 (line.toList ++ ['\r', '\n']) ++ rest) =
      if line = "" then some ([], rest)
      else (readHead n rest).map fun (lines, rest) => (line :: lines, rest) := by
  rw [readHead, cut_line line h, Option.bind_some]
  show ((lineText _).bind _).bind _ = _
  rw [lineText_line, Option.bind_some]

/-- A head is read back, and what is behind it stays. -/
theorem readHead_headText {lines : List String} (h : ∀ line ∈ lines, HeadLine line)
    (rest : List UInt8) {n : Nat} (hn : lines.length < n) :
    readHead n (utf8 (headText lines ++ ['\r', '\n']) ++ rest) = some (lines, rest) := by
  induction lines generalizing n with
  | nil =>
    obtain ⟨n, rfl⟩ : ∃ m, n = m + 1 := ⟨n - 1, by simp at hn; omega⟩
    exact readHead_line "" (by simp) n rest
  | cons line lines ih =>
    obtain ⟨n, rfl⟩ : ∃ m, n = m + 1 := ⟨n - 1, by simp at hn; omega⟩
    obtain ⟨hne, hnewline⟩ := h line List.mem_cons_self
    have hsplit : utf8 (headText (line :: lines) ++ ['\r', '\n']) ++ rest =
        utf8 (line.toList ++ ['\r', '\n']) ++ (utf8 (headText lines ++ ['\r', '\n']) ++ rest) := by
      rw [headText, List.flatMap_cons, List.append_assoc, utf8_append, List.append_assoc]
      rfl
    rw [hsplit, readHead_line line hnewline, if_neg hne,
      ih (fun l hl => h l (List.mem_cons_of_mem _ hl)) (by simpa using hn)]
    rfl

/-- A header: its name has no colon in it, and neither part a newline. -/
structure Header (p : String × String) : Prop where
  name : ':' ∉ p.1.toList ∧ '\n' ∉ p.1.toList
  value : '\n' ∉ p.2.toList

def headerLine (p : String × String) : String := p.1 ++ ": " ++ p.2

theorem readHeader_headerLine {p : String × String} (h : Header p) :
    readHeader (headerLine p) = some p := by
  have hspan : (headerLine p).toList.span (· != ':') = (p.1.toList, ':' :: (" " ++ p.2).toList) := by
    have hline : (headerLine p).toList = p.1.toList ++ ':' :: (" " ++ p.2).toList := by
      simp [headerLine]
    rw [hline]
    exact span_append (fun c hc => by simpa using fun heq : c = ':' => h.name.1 (heq ▸ hc))
      (by simp)
  have hsplit : Text.splitOnce ':' (headerLine p) = some (p.1, " " ++ p.2) := by
    rw [Text.splitOnce, hspan]
    simp
  rw [readHeader, hsplit, Option.bind_some]
  show (Text.stripPrefix " " (" " ++ p.2)).map _ = _
  rw [Text.stripPrefix_append, Option.map_some]

theorem headLine_headerLine {p : String × String} (h : Header p) : HeadLine (headerLine p) := by
  refine ⟨fun hempty => ?_, ?_⟩
  · have hlist := congrArg String.toList hempty
    simp [headerLine] at hlist
  · simp [headerLine, h.name.2, h.value]

theorem mapM_readHeader {headers : List (String × String)} (h : ∀ p ∈ headers, Header p) :
    (headers.map headerLine).mapM readHeader = some headers := by
  rw [List.mapM_map]
  induction headers with
  | nil => rfl
  | cons p headers ih =>
    rw [List.mapM_cons, Function.comp_apply, readHeader_headerLine (h p List.mem_cons_self),
      ih fun q hq => h q (List.mem_cons_of_mem _ hq)]
    rfl

theorem readLength_toString (n : Nat) : readLength (toString n) = some n := by
  have hdigits : (toString n).toList = Nat.toDigits 10 n := Nat.toList_repr
  have hne : toString n ≠ "" := by
    intro hempty
    rw [hempty] at hdigits
    exact Nat.toDigits_ne_nil hdigits.symm
  have hall : (toString n).toList.all Char.isDigit = true := by
    rw [hdigits, List.all_eq_true]
    exact allDigits_toDigits n
  rw [readLength, if_pos ⟨hne, hall⟩, hdigits, digitsValue_toDigits]

/-- The headers of a response. -/
def responseHeaders (contentType : String) (extra : List (String × String)) (body : String) :
    List (String × String) :=
  [("Content-Type", contentType), ("Content-Length", toString body.utf8ByteSize),
    ("Connection", "close")] ++ extra

def extraText (extra : List (String × String)) : String :=
  String.join (extra.map fun p => headerLine p ++ "\r\n")

theorem toList_response (status contentType : String) (extra : List (String × String))
    (body : String) :
    (response status contentType (extraText extra) body).toList =
      headText (("HTTP/1.1 " ++ status) ::
        (responseHeaders contentType extra body).map headerLine) ++ ['\r', '\n'] ++ body.toList := by
  have hextra : (extraText extra).toList = headText (extra.map headerLine) := by
    simp [extraText, headText, String.toList_join, List.flatMap_map]
  have hresponse : response status contentType (extraText extra) body =
      "HTTP/1.1 " ++ status ++ "\r\nContent-Type: " ++ contentType ++ "\r\nContent-Length: " ++
        toString body.utf8ByteSize ++ "\r\n" ++
          ("Connection: close\r\n" ++ extraText extra ++ "\r\n" ++ body) := rfl
  rw [hresponse]
  simp only [String.toList_append, hextra]
  simp [headText, responseHeaders, headerLine, List.flatMap_map]

theorem length_headText (lines : List String) : lines.length ≤ (utf8 (headText lines)).length := by
  induction lines with
  | nil => exact Nat.zero_le _
  | cons line lines ih =>
    have hline : (utf8 (line.toList ++ ['\r', '\n'])).length = (utf8 line.toList).length + 2 := by
      rw [utf8_append, List.length_append]
      rfl
    rw [headText, List.flatMap_cons, utf8_append, List.length_append, hline, List.length_cons]
    rw [headText] at ih
    omega

/-- A response is read back: the status, the headers and the whole body. -/
theorem readReply_response (status contentType : String) (extra : List (String × String))
    (body : String) (hstatus : '\n' ∉ status.toList) (htype : '\n' ∉ contentType.toList)
    (hextra : ∀ p ∈ extra, Header p) :
    readReply (utf8 (response status contentType (extraText extra) body).toList) =
      some ⟨status, responseHeaders contentType extra body, body⟩ := by
  have hlength : Header ("Content-Length", toString body.utf8ByteSize) := by
    refine ⟨by simp, fun hmem => ?_⟩
    have hdigit := allDigits_toDigits body.utf8ByteSize '\n' (by simpa using hmem)
    exact absurd hdigit (by decide)
  have hheaders : ∀ p ∈ responseHeaders contentType extra body, Header p := by
    simp only [responseHeaders, List.cons_append, List.nil_append, List.forall_mem_cons]
    exact ⟨⟨by simp, htype⟩, hlength, ⟨by simp, by simp⟩, hextra⟩
  have hlines : ∀ line ∈ ("HTTP/1.1 " ++ status) ::
      (responseHeaders contentType extra body).map headerLine, HeadLine line := by
    rw [List.forall_mem_cons, List.forall_mem_map]
    refine ⟨⟨fun hempty => ?_, by simpa using hstatus⟩, fun p hp => headLine_headerLine (hheaders p hp)⟩
    have hlist := congrArg String.toList hempty
    simp at hlist
  have hhead : readHead ((utf8 (response status contentType (extraText extra) body).toList).length + 1)
      (utf8 (response status contentType (extraText extra) body).toList) =
        some (("HTTP/1.1 " ++ status) :: (responseHeaders contentType extra body).map headerLine,
          utf8 body.toList) := by
    rw [toList_response, utf8_append]
    refine readHead_headText hlines _ (Nat.lt_succ_of_le ?_)
    refine (length_headText _).trans ?_
    simp only [utf8_append, List.length_append]
    omega
  have hbody : lineText (utf8 body.toList) = some body := by
    rw [lineText, fromUTF8_utf8, String.ofList_toList]
  rw [readReply, hhead]
  simp only [Text.stripPrefix_append, Option.bind_some, mapM_readHeader hheaders]
  have hlookup : (responseHeaders contentType extra body).lookup "Content-Length" =
      some (toString body.utf8ByteSize) := rfl
  rw [hlookup, Option.bind_some, readLength_toString, Option.bind_some, length_utf8, if_pos rfl,
    hbody, Option.map_some]

/-! ## The endpoint -/

/-- What a request line is answered, by its route. -/
def replyTo (stats : AgentStats) (now : Nat) : Option Route → Reply
  | some .metrics =>
    let reading := stats.reading now
    let body := metricsExposition metricPrefix reading.measurement reading.fresh
    ⟨"200 OK", responseHeaders expositionType [] body, body⟩
  | some .index =>
    let body := "btwattch2 agent\nmetrics: /metrics\n"
    ⟨"200 OK", responseHeaders textType [] body, body⟩
  | some .methodNotAllowed =>
    ⟨"405 Method Not Allowed", responseHeaders textType [("Allow", "GET")] "", ""⟩
  | some .notFound | none => ⟨"404 Not Found", responseHeaders textType [] "", ""⟩

/-- Every line there is is answered with a response that is read back. -/
theorem handle_replyTo {line : String} (h : line ≠ "") (stats : AgentStats) (now : Nat) :
    ∃ response, handle line stats now = some response ∧
      readReply (utf8 response.toList) = some (replyTo stats now (route line)) := by
  have hempty : line.isEmpty = false := by simpa using h
  have hplain : ∀ status contentType body, '\n' ∉ status.toList → '\n' ∉ contentType.toList →
      readReply (utf8 (response status contentType "" body).toList) =
        some ⟨status, responseHeaders contentType [] body, body⟩ := fun status contentType body hs ht =>
    readReply_response status contentType [] body hs ht (by simp)
  have hallow : readReply (utf8 (response "405 Method Not Allowed" textType "Allow: GET\r\n"
      "").toList) = some ⟨"405 Method Not Allowed", responseHeaders textType [("Allow", "GET")] "",
        ""⟩ := by
    have hextra : extraText [("Allow", "GET")] = "Allow: GET\r\n" := by decide
    rw [← hextra]
    refine readReply_response _ _ _ _ (by decide) (by decide) fun p hp => ?_
    rw [List.mem_singleton.mp hp]
    exact ⟨by simp, by simp⟩
  rw [handle, hempty, if_neg (by simp)]
  refine ⟨_, rfl, ?_⟩
  cases route line with
  | none => exact hplain _ _ _ (by decide) (by decide)
  | some r =>
    cases r with
    | metrics => exact hplain _ _ _ (by decide) (by decide)
    | index => exact hplain _ _ _ (by decide) (by decide)
    | notFound => exact hplain _ _ _ (by decide) (by decide)
    | methodNotAllowed => exact hallow

/-! ## The connection -/

section Stream

variable {ε : Type}

/-- Reading a line takes a first part of the contents, and which one does not depend on
the pieces. -/
theorem readLine_same {s t : Source UInt8 ε} (h : s.Same t) :
    (readLine s = none ∧ readLine t = none) ∨ ∃ text s' t' used, readLine s = some (text, s') ∧
      readLine t = some (text, t') ∧ s'.Same t' ∧ s.contents = used ++ s'.contents := by
  obtain ⟨e, hs, ht⟩ | ⟨line, s', t', hs, ht, hsame, hcontents⟩ := h.readUntil 0x0A
  · exact .inl ⟨by rw [readLine, hs], by rw [readLine, ht]⟩
  · rw [readLine, readLine, hs, ht]
    cases htext : lineText line with
    | none => exact .inl ⟨by simp [htext], by simp [htext]⟩
    | some text =>
      exact .inr ⟨text, s', t', line, by simp [htext], by simp [htext], hsame, hcontents⟩

theorem drainHead_suffix (n : Nat) (s : Source UInt8 ε) :
    ∃ used, s.contents = used ++ (drainHead n s).contents := by
  induction n generalizing s with
  | zero => exact ⟨[], rfl⟩
  | succ n ih =>
    obtain ⟨hs, -⟩ | ⟨text, s', -, used, hs, -, -, hcontents⟩ := readLine_same (Source.Same.refl s)
    · simp only [drainHead, hs]
      exact ⟨[], rfl⟩
    · simp only [drainHead, hs]
      split
      · exact ⟨used, hcontents⟩
      · obtain ⟨more, hmore⟩ := ih s'
        exact ⟨used ++ more, by rw [hcontents, hmore, List.append_assoc]⟩

/-- A line that is there is read. -/
theorem readLine_append {s : Source UInt8 ε} {line : String} {rest : List UInt8}
    (hline : '\n' ∉ line.toList) (h : s.contents = utf8 (line.toList ++ ['\n']) ++ rest) :
    ∃ t, readLine s = some (line ++ "\n", t) ∧ t.contents = rest := by
  have hend : utf8 (line.toList ++ ['\n']) = utf8 line.toList ++ [0x0A] := by
    rw [utf8_append]
    rfl
  have hcut : s.contents = utf8 line.toList ++ 0x0A :: rest := by
    rw [h, hend, List.append_assoc]
    rfl
  obtain ⟨t, hread, hcontents, -⟩ := Source.readUntil_append (newline_not_mem_utf8 hline) hcut
  have htext : lineText (utf8 line.toList ++ [0x0A]) = some (line ++ "\n") := by
    rw [← hend, lineText, fromUTF8_utf8]
    simp
  exact ⟨t, by rw [readLine, hread]; simp [htext], hcontents⟩

/-- The head of a request: lines that are not blank, and a blank one. -/
structure RequestHead where
  line : String
  headers : List String
  blank : String
  line_newline : '\n' ∉ line.toList
  headers_line : ∀ header ∈ headers, '\n' ∉ header.toList ∧ Text.trimEnd (header ++ "\n") ≠ ""
  blank_line : '\n' ∉ blank.toList ∧ Text.trimEnd (blank ++ "\n") = ""

namespace RequestHead

def rows (head : RequestHead) : List String := head.headers ++ [head.blank]

def bytes (head : RequestHead) : List UInt8 :=
  (head.line :: head.rows).flatMap fun row => utf8 (row.toList ++ ['\n'])

end RequestHead

theorem length_le_rows (rows : List String) :
    rows.length ≤ (rows.flatMap fun row => utf8 (row.toList ++ ['\n'])).length := by
  induction rows with
  | nil => exact Nat.zero_le _
  | cons row rows ih =>
    have hrow : (utf8 (row.toList ++ ['\n'])).length = (utf8 row.toList).length + 1 := by
      rw [utf8_append, List.length_append]
      rfl
    rw [List.flatMap_cons, List.length_append, hrow, List.length_cons]
    omega

/-- The head is drained up to its end and no further. -/
theorem drainHead_rows (head : RequestHead) (rest : List UInt8) {s : Source UInt8 ε}
    (h : s.contents = (head.rows.flatMap fun row => utf8 (row.toList ++ ['\n'])) ++ rest) {n : Nat}
    (hn : head.headers.length < n) : (drainHead n s).contents = rest := by
  obtain ⟨line, headers, blank, hline, hheaders, hblank⟩ := head
  simp only [RequestHead.rows] at h hn
  induction headers generalizing s n with
  | nil =>
    obtain ⟨n, rfl⟩ : ∃ m, n = m + 1 := ⟨n - 1, by simp at hn; omega⟩
    obtain ⟨t, hread, hcontents⟩ := readLine_append hblank.1 (by simpa using h)
    rw [drainHead, hread]
    simp [hblank.2, hcontents]
  | cons header headers ih =>
    obtain ⟨n, rfl⟩ : ∃ m, n = m + 1 := ⟨n - 1, by simp at hn; omega⟩
    rw [List.forall_mem_cons] at hheaders
    rw [List.cons_append, List.flatMap_cons, List.append_assoc] at h
    obtain ⟨t, hread, hcontents⟩ := readLine_append hheaders.1.1 h
    rw [drainHead, hread]
    have hmore : ((header ++ "\n").isEmpty || (Text.trimEnd (header ++ "\n")).isEmpty) = false := by
      have hne := hheaders.1.2
      simpa using hne
    simp only [hmore]
    exact ih hheaders.2 hcontents (by simpa using hn)

/-- **Any connection is answered soundly**: the pieces the bytes arrive in make no
difference, no more than 8 KiB of them are read, and what is written, if anything, is one
of the responses, whole. -/
theorem answered_wellFormed {s t : Source UInt8 ε} (h : s.Same t) (stats : AgentStats) (now : Nat) :
    (handleStream s stats now).map Prod.fst = (handleStream t stats now).map Prod.fst ∧
      ∀ bytes reader, handleStream s stats now = some (bytes, reader) →
        (∃ r, readReply bytes = some (replyTo stats now r)) ∧
          ∃ used, used ++ reader.contents = s.contents.take maxRequestBytes := by
  obtain ⟨hs, ht⟩ | ⟨text, s', t', used, hs, ht, hsame, hcontents⟩ :=
    readLine_same (h.take maxRequestBytes)
  · simp only [handleStream, hs, ht]
    exact ⟨trivial, fun _ _ hnone => nomatch hnone⟩
  · simp only [handleStream, hs, ht, Option.map_map]
    refine ⟨by cases handle text stats now <;> rfl, fun bytes reader hsome => ?_⟩
    obtain ⟨response, hresponse, hpair⟩ := Option.map_eq_some_iff.mp hsome
    obtain ⟨rfl, rfl⟩ := Prod.mk.inj hpair
    have hne : text ≠ "" := by
      rintro rfl
      simp [handle] at hresponse
    obtain ⟨response', hresponse', hreply⟩ := handle_replyTo hne stats now
    obtain rfl : response = response' := Option.some.inj (hresponse.symm.trans hresponse')
    obtain ⟨more, hmore⟩ := drainHead_suffix (s'.contents.length + 1) s'
    refine ⟨⟨_, hreply⟩, used ++ more, ?_⟩
    rw [List.append_assoc, ← hmore, ← hcontents, Source.contents_take]

end Stream

/-- A scraper's request. -/
def scrape : RequestHead where
  line := "GET /metrics HTTP/1.1\r"
  headers := ["Host: 127.0.0.1:9100\r", "Accept: text/plain\r"]
  blank := "\r"
  line_newline := by simp
  headers_line := by decide +kernel
  blank_line := by decide +kernel

/-- A line of one word and bytes that are no text behind it, in one piece and in two. -/
theorem answered_wellFormed_garbage :
    let s : Source UInt8 String := ⟨[], [[0x3F, 0x0A, 0xFF]], none⟩
    let t : Source UInt8 String := ⟨[], [[0x3F], [0x0A, 0xFF]], none⟩
    (handleStream s (.new 0 1000000000 none) 5).isSome ∧
      (handleStream s (.new 0 1000000000 none) 5).map Prod.fst =
        (handleStream t (.new 0 1000000000 none) 5).map Prod.fst ∧
      ∀ bytes reader, handleStream s (.new 0 1000000000 none) 5 = some (bytes, reader) →
        (∃ r, readReply bytes = some (replyTo (.new 0 1000000000 none) 5 r)) ∧
          ∃ used, used ++ reader.contents = s.contents.take maxRequestBytes :=
  ⟨by decide +kernel, answered_wellFormed ⟨rfl, rfl⟩ (.new 0 1000000000 none) 5⟩

end Btwattch2.Metrics
