import HttpService.Proofs.Draft
import HttpService.Proofs.Lines
import HttpService.Proofs.Tokens

/-! Reading a response off the wire. A reader that knows no more than the request says where the response ends,
and recovers everything that was put into it. -/

namespace HttpService

structure Reply where
  version : Version
  status : Nat
  reason : Bytes
  fields : List (Bytes × Bytes)
  body : Bytes
deriving DecidableEq

namespace Reply

def lines : Bytes → List Bytes
  | [] => [[]]
  | [byte] => [[byte]]
  | first :: second :: rest =>
    if first = Ascii.cr ∧ second = Ascii.lf then [] :: lines rest
    else
      match lines (second :: rest) with
      | [] => [[first]]
      | line :: more => (first :: line) :: more

def readVersion? (text : Bytes) : Option Version :=
  if text = Head.http10 then some .http10 else if text = Head.http11 then some .http11 else none

def readStatusLine? (line : Bytes) : Option (Version × Nat × Bytes) := do
  let (version, rest) ← Bytes.splitFirst? Ascii.space line
  let (status, reason) ← Bytes.splitFirst? Ascii.space rest
  let version ← readVersion? version
  let status ← Decimal.value? status
  return (version, status, reason)

def readField? (line : Bytes) : Option (Bytes × Bytes) := do
  let (name, rest) ← Bytes.splitFirst? Ascii.colon line
  match rest with
  | [] => none
  | first :: value => if first = Ascii.space then some (name, value) else none

def isNamed (name : FieldName) (line : Bytes × Bytes) : Bool := Bytes.sameIgnoringCase line.1 name.bytes

def length? (fields : List (Bytes × Bytes)) : Option Nat :=
  match fields.filter (isNamed .contentLength) with
  | [line] => Decimal.value? line.2
  | _ => none

/-- Reads one response, and gives what follows it. The response to a request for the head alone has no body,
whatever length it announces. -/
def read? (headOnly : Bool) (content : Bytes) : Option (Reply × Bytes) := do
  let stop ← Bytes.indexOf? HeadBuffer.endMark content
  let after := content.drop (stop + 4)
  match lines (content.take stop) with
  | [] => none
  | first :: fieldLines =>
    let (version, status, reason) ← readStatusLine? first
    let fields ← fieldLines.mapM readField?
    let length ← length? fields
    let taken := if headOnly then 0 else length
    if after.length < taken then none
    else return (⟨version, status, reason, fields, after.take taken⟩, after.drop taken)

theorem lines_of_line {line : Bytes} (absent : Ascii.lf ∉ line) : lines line = [line] := by
  induction line with
  | nil => rfl
  | cons first line ih =>
      simp only [List.mem_cons, not_or] at absent
      cases line with
      | nil => rfl
      | cons second rest =>
          have plain : ¬(first = Ascii.cr ∧ second = Ascii.lf) := fun mark => absent.2 (by simp [mark.2])
          simp [lines, plain, ih absent.2]

theorem lines_append {line : Bytes} (absent : Ascii.lf ∉ line) (tail : Bytes) :
    lines (line ++ Ascii.crlf ++ tail) = line :: lines tail := by
  induction line with
  | nil => simp [Ascii.crlf, lines]
  | cons first line ih =>
      simp only [List.mem_cons, not_or] at absent
      have later := ih absent.2
      cases line with
      | nil =>
          simp only [List.nil_append] at later
          have plain : ¬(first = Ascii.cr ∧ Ascii.cr = Ascii.lf) := fun mark => absurd mark.2 (by decide)
          simp only [Ascii.crlf, List.cons_append, List.nil_append] at later ⊢
          rw [lines, if_neg plain, later]
      | cons second rest =>
          have plain : ¬(first = Ascii.cr ∧ second = Ascii.lf) := fun mark => absent.2 (by simp [mark.2])
          simp only [List.cons_append] at later ⊢
          rw [lines, if_neg plain, later]

theorem lines_block {lines' : List Bytes} (nonempty : lines' ≠ [])
    (sound : ∀ line ∈ lines', HeadBuffer.IsLine line) :
    lines ((HeadBuffer.block lines').take ((HeadBuffer.block lines').length - 4)) = lines' := by
  induction lines' with
  | nil => exact absurd rfl nonempty
  | cons line later ih =>
      have absent := (sound line (by simp)).2
      cases later with
      | nil =>
          have front : (HeadBuffer.block [line]).take ((HeadBuffer.block [line]).length - 4) = line := by
            simp [HeadBuffer.block, Ascii.crlf]
          rw [front, lines_of_line absent]
      | cons next more =>
          have closed := ih (by simp) fun line member => sound line (by simp [member])
          have enough : 4 ≤ (HeadBuffer.block (next :: more)).length := by
            simp only [HeadBuffer.block, List.flatMap_cons, List.length_append, Ascii.crlf, List.length_cons]
            omega
          have front : (HeadBuffer.block (line :: next :: more)).take
              ((HeadBuffer.block (line :: next :: more)).length - 4) = line ++ Ascii.crlf ++
                (HeadBuffer.block (next :: more)).take ((HeadBuffer.block (next :: more)).length - 4) := by
            rw [HeadBuffer.block_cons, List.take_append, List.take_of_length_le]
            · congr 2
              simp only [List.length_append]
              omega
            · simp only [List.length_append]
              omega
          rw [front, lines_append absent, closed]

def fieldText (line : Bytes × Bytes) : Bytes := line.1 ++ Ascii.bytes ": " ++ line.2

def IsField (line : Bytes × Bytes) : Prop := Ascii.colon ∉ line.1 ∧ Ascii.lf ∉ line.1 ∧ Ascii.lf ∉ line.2

theorem IsField.isLine {line : Bytes × Bytes} (sound : IsField line) : HeadBuffer.IsLine (fieldText line) := by
  refine ⟨by simp [fieldText, Ascii.bytes_colonSpace], ?_⟩
  simp only [fieldText, Ascii.bytes_colonSpace, List.mem_append, List.mem_cons, List.not_mem_nil, not_or, or_false]
  exact ⟨⟨sound.2.1, by decide, by decide⟩, sound.2.2⟩

theorem readField?_fieldText {line : Bytes × Bytes} (sound : IsField line) :
    readField? (fieldText line) = some line := by
  have split := Bytes.splitFirst?_append sound.1 (Ascii.space :: line.2)
  have shape : fieldText line = line.1 ++ Ascii.colon :: Ascii.space :: line.2 := by
    simp [fieldText, Ascii.bytes_colonSpace]
  simp [readField?, shape, split]

theorem mapM_readField? {fields : List (Bytes × Bytes)} (sound : ∀ line ∈ fields, IsField line) :
    (fields.map fieldText).mapM readField? = some fields := by
  induction fields with
  | nil => rfl
  | cons line later ih =>
      rw [List.map_cons, List.mapM_cons, readField?_fieldText (sound line (by simp)),
        ih fun line member => sound line (by simp [member])]
      rfl

theorem read?_block {first : Bytes} {version : Version} {status : Nat} {reason : Bytes}
    (statusLine : readStatusLine? first = some (version, status, reason)) (firstSound : HeadBuffer.IsLine first)
    {fields : List (Bytes × Bytes)} (sound : ∀ line ∈ fields, IsField line) {length : Nat}
    (announced : length? fields = some length) (headOnly : Bool) {body : Bytes}
    (agrees : (if headOnly then 0 else length) = body.length) (rest : Bytes) :
    read? headOnly (HeadBuffer.block (first :: fields.map fieldText) ++ body ++ rest) =
      some (⟨version, status, reason, fields, body⟩, rest) := by
  have allSound : ∀ line ∈ first :: fields.map fieldText, HeadBuffer.IsLine line := by
    intro line member
    rcases List.mem_cons.mp member with same | later
    · exact same ▸ firstSound
    · obtain ⟨field, inside, rfl⟩ := List.mem_map.mp later
      exact (sound field inside).isLine
  generalize blockEq : HeadBuffer.block (first :: fields.map fieldText) = head
  have ended := HeadBuffer.headEnd?_block (by simp) allSound (body ++ rest)
  have cut := lines_block (by simp) allSound
  rw [blockEq] at ended cut
  obtain ⟨stop, found, stopEq⟩ := Option.map_eq_some_iff.mp ended
  have front : (head ++ (body ++ rest)).take stop = head.take (head.length - 4) := by
    rw [List.take_append_of_le_length (by omega)]
    congr 1
    omega
  have back : (head ++ (body ++ rest)).drop (stop + 4) = body ++ rest := by
    rw [stopEq, List.drop_append_of_le_length (Nat.le_refl _), List.drop_length, List.nil_append]
  have present : ¬(body ++ rest).length < body.length := by simp
  simp only [read?, List.append_assoc, found, Option.bind_eq_bind, Option.bind_some, front, back, cut, statusLine,
    mapM_readField? sound, announced, agrees, present, ↓reduceIte, List.take_left, List.drop_left]
  rfl

def answered (version : Version) : Version := if version = .http10 then .http10 else .http11

def statusText (version : Version) (status : Status) : Bytes :=
  Refusal.answeredVersion version ++ Decimal.toBytes status.code ++ [Ascii.space] ++ status.reason

theorem answeredVersion_eq (version : Version) :
    Refusal.answeredVersion version = version.bytes ++ [Ascii.space] := by
  simp only [Refusal.answeredVersion, Version.bytes]
  split <;> decide +kernel

theorem readVersion?_bytes (version : Version) : readVersion? version.bytes = some (answered version) := by
  have other : Head.http11 ≠ Head.http10 := by decide +kernel
  by_cases old : version = .http10 <;> simp [readVersion?, Version.bytes, answered, old, other]

theorem readStatusLine?_statusText (version : Version) (status : Status) :
    readStatusLine? (statusText version status) = some (answered version, status.code, status.reason) := by
  have shape : statusText version status = version.bytes ++
      Ascii.space :: (Decimal.toBytes status.code ++ Ascii.space :: status.reason) := by
    simp [statusText, answeredVersion_eq]
  have named := Bytes.splitFirst?_append (version.not_mem_bytes (.inl rfl))
    (Decimal.toBytes status.code ++ Ascii.space :: status.reason)
  have digits := Bytes.splitFirst?_append (Decimal.space_not_mem status.code) status.reason
  simp [readStatusLine?, shape, named, digits, readVersion?_bytes, Decimal.value?_toBytes]

theorem isLine_statusText (version : Version) (status : Status) :
    HeadBuffer.IsLine (statusText version status) := by
  refine ⟨by simp [statusText], ?_⟩
  simp only [statusText, answeredVersion_eq, List.mem_append, List.mem_singleton, not_or]
  exact ⟨⟨⟨⟨version.not_mem_bytes (.inr rfl), by decide⟩, Decimal.lf_not_mem status.code⟩, by decide⟩,
    status.lf_not_mem_reason⟩

end Reply

namespace Draft

def persistence (kept : Bool) : Bytes := Ascii.bytes (if kept then "keep-alive" else "close")

def shown (draft : Draft) (keepAlive : Bool) : List (Bytes × Bytes) :=
  draft.ownLines.map (fun line => (line.1.bytes, line.2.bytes)) ++
    [(FieldName.contentLength.bytes, Decimal.toBytes draft.body.length),
      (FieldName.connection.bytes, persistence (draft.keeps keepAlive))]

theorem isField_of_mem_shown {draft : Draft} {keepAlive : Bool} {line : Bytes × Bytes}
    (member : line ∈ draft.shown keepAlive) : Reply.IsField line := by
  have ofName (name : FieldName) : Ascii.colon ∉ name.bytes ∧ Ascii.lf ∉ name.bytes :=
    ⟨fun inside => (Ascii.ne_of_isToken (name.isToken_of_mem inside)).2.2.1 rfl,
      fun inside => (Ascii.ne_of_isToken (name.isToken_of_mem inside)).1 rfl⟩
  simp only [shown, List.mem_append, List.mem_map, List.mem_cons, List.not_mem_nil, or_false] at member
  rcases member with ⟨own, _, rfl⟩ | rfl | rfl
  · exact ⟨(ofName own.1).1, (ofName own.1).2, own.2.lf_not_mem⟩
  · exact ⟨(ofName _).1, (ofName _).2, Decimal.lf_not_mem _⟩
  · refine ⟨(ofName _).1, (ofName _).2, ?_⟩
    simp only [persistence]
    split <;> decide +kernel

theorem not_isNamed_of_mem_ownLines {draft : Draft} {line : FieldName × FieldValue} (member : line ∈ draft.ownLines)
    {name : FieldName} (framing : ResponseBuffer.isFraming name = true) :
    Reply.isNamed name (line.1.bytes, line.2.bytes) = false := by
  simp only [ownLines, List.mem_filter, Bool.not_eq_eq_eq_not, Bool.not_true] at member
  simp only [Reply.isNamed, FieldName.sameIgnoringCase_bytes, beq_eq_false_iff_ne]
  intro same
  rw [same, framing] at member
  simp at member

theorem filter_isNamed_shown (draft : Draft) (keepAlive : Bool) {name : FieldName}
    (framing : ResponseBuffer.isFraming name = true) :
    (draft.shown keepAlive).filter (Reply.isNamed name) =
      (if FieldName.contentLength = name then
        [(FieldName.contentLength.bytes, Decimal.toBytes draft.body.length)] else []) ++
      (if FieldName.connection = name then
        [(FieldName.connection.bytes, persistence (draft.keeps keepAlive))] else []) := by
  have own : (draft.ownLines.map fun line => (line.1.bytes, line.2.bytes)).filter (Reply.isNamed name) = [] := by
    rw [List.filter_eq_nil_iff]
    intro line member
    obtain ⟨source, inside, rfl⟩ := List.mem_map.mp member
    simp [not_isNamed_of_mem_ownLines inside framing]
  rw [shown, List.filter_append, own, List.nil_append, List.filter_cons, List.filter_cons, List.filter_nil]
  simp only [Reply.isNamed, FieldName.sameIgnoringCase_bytes, beq_iff_eq]
  split <;> split <;> rfl

theorem length?_shown (draft : Draft) (keepAlive : Bool) :
    Reply.length? (draft.shown keepAlive) = some draft.body.length := by
  have other : FieldName.connection ≠ FieldName.contentLength := by decide +kernel
  simp [Reply.length?, draft.filter_isNamed_shown keepAlive (show ResponseBuffer.isFraming .contentLength = true by
    decide +kernel), other, Decimal.value?_toBytes]

theorem wire_eq (draft : Draft) (request : Request) (keepAlive : Bool) :
    draft.wire request keepAlive =
      HeadBuffer.block (Reply.statusText request.version draft.status ::
        (draft.shown keepAlive).map Reply.fieldText) ++ if request.method = .head then [] else draft.body := by
  have added (kept : Bool) : ResponseBuffer.framing draft.body.length kept =
      Reply.fieldText (FieldName.contentLength.bytes, Decimal.toBytes draft.body.length) ++ Ascii.crlf ++
        (Reply.fieldText (FieldName.connection.bytes, persistence kept) ++ Ascii.crlf) ++ Ascii.crlf := by
    have length : Ascii.bytes "content-length: " = FieldName.contentLength.bytes ++ Ascii.bytes ": " := by
      decide +kernel
    have connection : Ascii.bytes (if kept then "connection: keep-alive" else "connection: close") =
        FieldName.connection.bytes ++ Ascii.bytes ": " ++ persistence kept := by
      cases kept <;> decide +kernel
    simp only [ResponseBuffer.framing, length, connection, Reply.fieldText, List.append_assoc]
  have own : draft.ownLines.flatMap ResponseBuffer.fieldLine =
      draft.ownLines.flatMap fun line => Reply.fieldText (line.1.bytes, line.2.bytes) ++ Ascii.crlf := rfl
  have first : ResponseBuffer.statusLine request.version draft.status =
      Reply.statusText request.version draft.status ++ Ascii.crlf := by
    simp only [ResponseBuffer.statusLine, Reply.statusText, Status.reason, List.append_assoc]
  simp only [wire, own, added, first, HeadBuffer.block, shown, List.map_append, List.map_map, List.map_cons,
    List.map_nil, List.flatMap_cons, List.flatMap_append, List.flatMap_nil, List.append_nil, List.append_assoc,
    List.flatMap_map, Function.comp_apply]

theorem read?_wire (draft : Draft) (request : Request) (keepAlive : Bool) (rest : Bytes) :
    Reply.read? (decide (request.method = .head)) (draft.wire request keepAlive ++ rest) =
      some (⟨Reply.answered request.version, draft.status.code, draft.status.reason, draft.shown keepAlive,
        if request.method = .head then [] else draft.body⟩, rest) := by
  rw [wire_eq]
  apply Reply.read?_block (Reply.readStatusLine?_statusText request.version draft.status)
    (Reply.isLine_statusText request.version draft.status) (fun line member => isField_of_mem_shown member)
    (draft.length?_shown keepAlive)
  by_cases headOnly : request.method = .head <;> simp [headOnly]

end Draft

namespace Reply

/-- What any calls of a sink leave to be written out delimits itself on the wire: it is read off as the first head
without the fields that frame it, the two fields that the connection adds, and the body bytes that were accepted,
and whatever follows it is left. -/
theorem read?_finish (buffer : ResponseBuffer) (limits : ResponseLimits) (request : Request)
    (calls : List SinkCall) (keepAlive : Bool) {outlet : Outlet} (flows : outlet.Flows)
    (flushes : outlet.flushFailure 0 = none) :
    let done := SinkCall.performAll (buffer.reset request limits) calls
    let first := calls.findSome? SinkCall.head?
    let status := (first.map Prod.fst).getD .ok
    let lines := (first.map fun head => head.2.toList).getD []
    let own := (lines.filter fun line => !ResponseBuffer.isFraming line.1).map fun line =>
      (line.1.bytes, line.2.bytes)
    let kept := keepAlive && !lines.any fun line =>
      line.1 == .connection && Bytes.sameIgnoringCase line.2.bytes (Ascii.bytes "close")
    let length := (FieldName.contentLength.bytes, Decimal.toBytes done.1)
    let persistence := (FieldName.connection.bytes, Ascii.bytes (if kept then "keep-alive" else "close"))
    ∃ wire,
      (done.2.finish outlet keepAlive).outlet.taken = outlet.taken ++ wire ∧
      (done.2.finish outlet keepAlive).kept = .ok kept ∧
      (∀ rest, read? (decide (request.method = .head)) (wire ++ rest) =
        some (⟨if request.version = .http10 then .http10 else .http11, status.code, status.reason,
          own ++ [length, persistence], if request.method = .head then [] else SinkCall.accepted calls⟩, rest)) ∧
      done.1 = (SinkCall.accepted calls).length ∧
      (own ++ [length, persistence]).filter (isNamed .contentLength) = [length] ∧
      (own ++ [length, persistence]).filter (isNamed .connection) = [persistence] ∧
      (own ++ [length, persistence]).filter (isNamed .transferEncoding) = [] := by
  intro done first status lines own kept length persistence
  obtain ⟨holds, counted⟩ := SinkCall.holds_draft buffer request limits calls
  obtain ⟨keptEq, outletEq⟩ := holds.finish flows flushes keepAlive
  have keeps : (SinkCall.draft calls).keeps keepAlive = kept := by
    rw [Draft.keeps, Draft.asksToClose, Draft.lines, SinkCall.head_draft]
    rfl
  have bodyLength : (SinkCall.draft calls).body.length = done.1 := counted.symm
  have shown : (SinkCall.draft calls).shown keepAlive = own ++ [length, persistence] := by
    rw [Draft.shown, keeps, bodyLength, Draft.ownLines, Draft.lines, SinkCall.head_draft]
    rfl
  have framed (name : FieldName) (framing : ResponseBuffer.isFraming name = true) :
      (own ++ [length, persistence]).filter (isNamed name) =
        (if FieldName.contentLength = name then [length] else []) ++
          (if FieldName.connection = name then [persistence] else []) := by
    rw [← shown, Draft.filter_isNamed_shown _ _ framing, keeps, bodyLength]
    rfl
  refine ⟨(SinkCall.draft calls).wire request keepAlive, congrArg Outlet.taken outletEq, keeps ▸ keptEq,
    fun rest => ?_, ?_, framed _ (by decide +kernel), framed _ (by decide +kernel), framed _ (by decide +kernel)⟩
  · rw [Draft.read?_wire, shown, SinkCall.body_draft, Draft.status, SinkCall.head_draft]
    rfl
  · rw [← SinkCall.body_draft, bodyLength]

/-- A body in front of the head is lost, a second head as well, and a head cannot announce a length of its own. -/
theorem read?_finish_byte_by_byte :
    let outlet := Outlet.limited (some 1) none none
    let fields := Fields.ofList [(.contentLength, ⟨Ascii.bytes "9", by decide +kernel⟩),
      (.host, ⟨Ascii.bytes "a:b", by decide +kernel⟩), (.connection, ⟨Ascii.bytes "Close", by decide +kernel⟩)]
    let calls : List SinkCall := [.body (Ascii.bytes "lost"), .head ⟨404, by decide⟩ fields,
      .body (Ascii.bytes "no"), .head .ok .empty]
    let done := SinkCall.performAll ((ResponseBuffer.new {}).reset .blank {}) calls
    outlet.Flows ∧ outlet.flushFailure 0 = none ∧
      (done.2.finish outlet true).kept = .ok false ∧
      read? false (done.2.finish outlet true).outlet.taken =
        some (⟨.http11, 404, Ascii.bytes "Not Found", [(Ascii.bytes "host", Ascii.bytes "a:b"),
          (Ascii.bytes "content-length", Ascii.bytes "2"), (Ascii.bytes "connection", Ascii.bytes "close")],
          Ascii.bytes "no"⟩, []) := by
  intro outlet fields calls done
  have flows : outlet.Flows := fun _ => ⟨0, rfl⟩
  obtain ⟨wire, taken, kept, read, _⟩ := read?_finish (.new {}) {} .blank calls true flows rfl
  refine ⟨flows, rfl, kept.trans (congrArg Except.ok (by decide +kernel)), ?_⟩
  have whole := read []
  rw [List.append_nil] at whole
  rw [taken, show outlet.taken = [] from rfl, List.nil_append]
  exact whole.trans (by decide +kernel)

end Reply

end HttpService
