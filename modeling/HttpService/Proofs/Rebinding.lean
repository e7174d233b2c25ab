import HttpService.Proofs.Listing
import HttpService.Session.Exchange
import Mathlib.Data.List.TakeWhile

/-! A view of a request that is bound again and again, with the views that it gave back: what it answers is read off the
request that is bound at the time, and nothing is left over from those before. -/

namespace HttpService

namespace Bytes

theorem splitAll_eq (separator : UInt8) (content : Bytes) :
    ∃ pieces, splitAll separator content = content.takeWhile (· != separator) :: pieces := by
  induction content with
  | nil => exact ⟨[], rfl⟩
  | cons byte rest ih =>
      obtain ⟨pieces, split⟩ := ih
      by_cases same : byte = separator
      · exact ⟨splitAll separator rest, by simp [splitAll, same]⟩
      · exact ⟨pieces, by simp [splitAll, split, same]⟩

theorem dropWhile_append_of_edge (outer : UInt8 → Bool) {media : Bytes} (nonempty : media ≠ [])
    (first : ∀ byte ∈ media.head?, outer byte = false) (rest : Bytes) :
    (media ++ rest).dropWhile outer = media ++ rest := by
  obtain ⟨byte, later, rfl⟩ := List.exists_cons_of_ne_nil nonempty
  rw [List.cons_append, List.dropWhile_cons_of_neg]
  simp [first byte rfl]

theorem dropWhile_both (outer : UInt8 → Bool) {front media back : Bytes}
    (around : ∀ byte ∈ front ++ back, outer byte = true) (first : ∀ byte ∈ media.head?, outer byte = false)
    (last : ∀ byte ∈ media.getLast?, outer byte = false) :
    (((front ++ media ++ back).dropWhile outer).reverse.dropWhile outer).reverse = media := by
  have before : ∀ byte ∈ front, outer byte = true := fun byte member => around byte (List.mem_append_left back member)
  have after : ∀ byte ∈ back, outer byte = true := fun byte member => around byte (List.mem_append_right front member)
  rw [List.append_assoc, List.dropWhile_append_of_pos before]
  by_cases empty : media = []
  · subst empty
    rw [List.nil_append, List.dropWhile_eq_nil_iff.mpr after]
    rfl
  · have turned : ∀ byte ∈ back.reverse, outer byte = true := fun byte member => after byte (List.mem_reverse.mp member)
    rw [dropWhile_append_of_edge outer empty first, List.reverse_append, List.dropWhile_append_of_pos turned,
      ← List.append_nil media.reverse,
      dropWhile_append_of_edge outer (by simpa using empty) (by simpa using last) [], List.append_nil,
      List.reverse_reverse]

end Bytes

namespace Cookie

theorem exists_trimBlanks (content : Bytes) :
    ∃ front back, content = front ++ trimBlanks content ++ back ∧ ∀ byte ∈ front ++ back, isBlank byte = true := by
  let tail := content.dropWhile isBlank
  refine ⟨content.takeWhile isBlank, (tail.reverse.takeWhile isBlank).reverse, ?_, ?_⟩
  · have last : tail = (tail.reverse.dropWhile isBlank).reverse ++ (tail.reverse.takeWhile isBlank).reverse := by
      rw [← List.reverse_append, List.takeWhile_append_dropWhile, List.reverse_reverse]
    rw [trimBlanks, List.append_assoc, ← last, List.takeWhile_append_dropWhile]
  · intro byte member
    rcases List.mem_append.mp member with before | after
    · exact List.mem_takeWhile_imp before
    · exact List.mem_takeWhile_imp (List.mem_reverse.mp after)

theorem trimBlanks_append {front media back : Bytes} (blank : ∀ byte ∈ front ++ back, isBlank byte = true)
    (first : ∀ byte ∈ media.head?, isBlank byte = false) (last : ∀ byte ∈ media.getLast?, isBlank byte = false) :
    trimBlanks (front ++ media ++ back) = media :=
  Bytes.dropWhile_both isBlank blank first last

theorem isBlank_toLower (byte : UInt8) : isBlank (Ascii.toLower byte) = isBlank byte :=
  beq_iff_eq.mp (Ascii.holds_of_all (fun value => isBlank (Ascii.toLower value) == isBlank value) (by decide +kernel) byte)

end Cookie

theorem Form.lookup?_eq_some_iff (params : List (String × String)) (name value : String) :
    lookup? params name = some value ↔
      ∃ front back, params = front ++ (name, value) :: back ∧ ∀ param ∈ front, param.1 ≠ name := by
  rw [lookup?, Option.map_eq_some_iff]
  constructor
  · rintro ⟨⟨_, _⟩, found, rfl⟩
    obtain ⟨same, front, back, split, before⟩ := List.find?_eq_some_iff_append.mp found
    obtain rfl := beq_iff_eq.mp same
    exact ⟨front, back, split, fun param member => by simpa using before param member⟩
  · rintro ⟨front, back, split, before⟩
    refine ⟨(name, value), List.find?_eq_some_iff_append.mpr ⟨beq_self_eq_true name, front, back, split, ?_⟩, rfl⟩
    exact fun param member => by simpa using before param member

def Request.SendsForm (request : Request) : Prop :=
  ∃ value, request.fields.first? .contentType = some value ∧ (∀ byte ∈ value.bytes, Ascii.isVisible byte = true) ∧
    ∃ front media back, value.bytes.takeWhile (· != Cookie.semicolon) = front ++ media ++ back ∧
      (∀ byte ∈ front ++ back, Cookie.isBlank byte = true) ∧ Bytes.sameIgnoringCase media RequestView.formType = true

theorem RequestView.isForm_iff (request : Request) : isForm request = true ↔ request.SendsForm := by
  have named (content : Bytes) : Bytes.sameIgnoringCase (Cookie.trimBlanks content) formType = true ↔
      ∃ front media back, content = front ++ media ++ back ∧ (∀ byte ∈ front ++ back, Cookie.isBlank byte = true) ∧
        Bytes.sameIgnoringCase media formType = true := by
    constructor
    · intro same
      obtain ⟨front, back, split, blank⟩ := Cookie.exists_trimBlanks content
      exact ⟨front, _, back, split, blank, same⟩
    · rintro ⟨front, media, back, rfl, blank, same⟩
      have lowered : Bytes.lower media = Bytes.lower formType := beq_iff_eq.mp same
      have solid : ∀ byte ∈ media, Cookie.isBlank byte = false := by
        intro byte member
        have inside : Ascii.toLower byte ∈ Bytes.lower formType := lowered ▸ List.mem_map_of_mem member
        have checked : ∀ letter ∈ Bytes.lower formType, Cookie.isBlank letter = false := by decide +kernel
        rw [← Cookie.isBlank_toLower]
        exact checked _ inside
      rwa [Cookie.trimBlanks_append blank (fun byte edge => solid byte (List.mem_of_mem_head? edge))
        fun byte edge => solid byte (List.mem_of_mem_getLast? edge)]
  rw [isForm, Request.SendsForm]
  cases found : request.fields.first? .contentType with
  | none => simp
  | some value =>
      obtain ⟨pieces, split⟩ := Bytes.splitAll_eq Cookie.semicolon value.bytes
      have visible : value.text?.isSome = true ↔ ∀ byte ∈ value.bytes, Ascii.isVisible byte = true := by
        rw [FieldValue.text?, ← List.all_eq_true]
        split <;> simp_all
      simp only [split, Bool.and_eq_true, visible, named, Option.some.injEq, exists_eq_left']

section

variable {view other : FieldsView}

theorem FieldsOp.answer_congr (op : FieldsOp) (source : view.source = other.source) (locked : view.locked = other.locked)
    (listed : view.Listed) (otherListed : other.Listed) : (op.perform view).1 = (op.perform other).1 := by
  have fields : view.fields? = other.fields? := by rw [FieldsView.fields?, FieldsView.fields?, source]
  have change : view.fieldsToChange = other.fieldsToChange := by
    rw [FieldsView.fieldsToChange, FieldsView.fieldsToChange, source, locked]
  have changed (edit : Fields → Except FieldError Fields) : (view.change edit).1 = (other.change edit).1 := by
    simp only [FieldsView.change, change]
    split
    · rfl
    · split <;> rfl
  cases op with
  | get key => simp only [perform, FieldsView.get?, fields]
  | contains key => simp only [perform, FieldsView.contains, fields]
  | size | isEmpty => simp only [perform, FieldsView.size, fields]
  | keys =>
      rw [perform, perform, listed.listKeys.1, otherListed.listKeys.1, FieldsView.currentKeys, FieldsView.currentKeys,
        fields]
  | set key value | add key value | del key => exact changed _

theorem FieldsOp.source_perform (op : FieldsOp) (readOnly : ∀ fields, view.source ≠ .exclusive fields) :
    (op.perform view).2.source = view.source ∧ (op.perform view).2.locked = view.locked := by
  have changed (edit : Fields → Except FieldError Fields) :
      (view.change edit).2.source = view.source ∧ (view.change edit).2.locked = view.locked := by
    simp only [FieldsView.change, FieldsView.fieldsToChange]
    cases locked : view.locked with
    | true => exact ⟨rfl, locked⟩
    | false =>
        cases source : view.source with
        | exclusive fields => exact absurd source (readOnly fields)
        | unbound | shared => exact ⟨source, locked⟩
  cases op with
  | set key value | add key value | del key => exact changed _
  | keys =>
      simp only [perform, FieldsView.listKeys]
      split <;> exact ⟨rfl, rfl⟩
  | _ => exact ⟨rfl, rfl⟩

end

namespace UrlView

def Decoded (view : UrlView) : Prop := view.decoded = true → view.query = view.currentParams

variable {view : UrlView}

theorem Decoded.decode (decoded : view.Decoded) :
    view.decode.query = view.currentParams ∧ view.decode.uri = view.uri ∧ view.decode.Decoded := by
  simp only [UrlView.decode]
  split
  · rename_i before
    exact ⟨decoded before, rfl, decoded⟩
  · exact ⟨rfl, rfl, fun _ => rfl⟩

end UrlView

theorem UrlOp.answer_congr (op : UrlOp) {view other : UrlView} (uri : view.uri = other.uri) (decoded : view.Decoded)
    (otherDecoded : other.Decoded) : (op.perform view).1 = (op.perform other).1 := by
  have query : view.decode.query = other.decode.query := by
    rw [decoded.decode.1, otherDecoded.decode.1, UrlView.currentParams, UrlView.currentParams, uri]
  cases op with
  | path => simp only [perform, UrlView.path, uri]
  | rawQuery => simp only [perform, UrlView.rawQuery, uri]
  | queryParam | queryParams => simp only [perform, query]

theorem UrlOp.uri_perform (op : UrlOp) {view : UrlView} (decoded : view.Decoded) :
    (op.perform view).2.uri = view.uri ∧ (op.perform view).2.Decoded := by
  cases op with
  | path | rawQuery => exact ⟨rfl, decoded⟩
  | queryParam | queryParams => exact decoded.decode.2

namespace RequestView

def fresh : Option Request → RequestView
  | none => .unbound
  | some request => .bind .unbound request (.bind .unbound request.fields) (.bind .unbound request.uri)

structure Tells (view : RequestView) (current : Option Request) : Prop where
  bound : view.bound = current
  source : view.fields.source = (fresh current).fields.source
  unlocked : view.fields.locked = false
  listed : view.fields.Listed
  uri : view.url.uri = (fresh current).url.uri
  query : view.url.Decoded
  form : view.decoded = true → view.form = formOf view.request

variable {view : RequestView} {current : Option Request}

theorem tells_bind (view : RequestView) (request : Request) (fields : FieldsView) (url : UrlView) :
    (view.bind request (fields.bind request.fields) (url.bind request.uri)).Tells (some request) where
  bound := rfl
  source := rfl
  unlocked := rfl
  listed := FieldsView.listed_rebind fields _
  uri := rfl
  query := fun decoded => absurd decoded Bool.false_ne_true
  form := fun decoded => absurd decoded Bool.false_ne_true

theorem tells_unbound : unbound.Tells none where
  bound := rfl
  source := rfl
  unlocked := rfl
  listed := FieldsView.listed_rebind .unbound _
  uri := rfl
  query := fun decoded => absurd decoded Bool.false_ne_true
  form := fun decoded => absurd decoded Bool.false_ne_true

theorem tells_fresh (current : Option Request) : (fresh current).Tells current := by
  cases current with
  | none => exact tells_unbound
  | some request => exact tells_bind .unbound request .unbound .unbound

theorem fresh_readOnly (current : Option Request) (fields : Fields) :
    (fresh current).fields.source ≠ .exclusive fields := by
  cases current <;> nofun

namespace Tells

theorem form_decode (tells : view.Tells current) : view.decode.form = formOf (current.getD .blank) := by
  have request : view.request = current.getD .blank := by rw [RequestView.request, tells.bound]
  rw [← request, RequestView.decode]
  split
  · rename_i before
    exact tells.form before
  · rfl

theorem decode (tells : view.Tells current) : view.decode.Tells current := by
  rw [RequestView.decode]
  split
  · exact tells
  · exact { tells with form := fun _ => rfl }

theorem perform (tells : view.Tells current) (op : RequestOp) : (op.perform view).2.Tells current := by
  cases op with
  | fields op =>
      have readOnly : ∀ fields, view.fields.source ≠ .exclusive fields := tells.source ▸ fresh_readOnly current
      have kept := op.source_perform readOnly
      exact { tells with
        source := kept.1.trans tells.source
        unlocked := kept.2.trans tells.unlocked
        listed := op.listed_perform tells.listed }
  | url op =>
      have kept := op.uri_perform tells.query
      exact { tells with uri := kept.1.trans tells.uri, query := kept.2 }
  | formValue | formParams => exact tells.decode
  | _ => exact tells

theorem answer_congr {other : RequestView} (tells : view.Tells current) (otherTells : other.Tells current)
    (op : RequestOp) : (op.perform view).1 = (op.perform other).1 := by
  have bound : view.bound = other.bound := tells.bound.trans otherTells.bound.symm
  have request : view.request = other.request := by rw [RequestView.request, RequestView.request, bound]
  have form : view.decode.form = other.decode.form := tells.form_decode.trans otherTells.form_decode.symm
  cases op with
  | fields op =>
      exact op.answer_congr (tells.source.trans otherTells.source.symm) (tells.unlocked.trans otherTells.unlocked.symm)
        tells.listed otherTells.listed
  | url op => exact op.answer_congr (tells.uri.trans otherTells.uri.symm) tells.query otherTells.query
  | formValue | formParams => simp only [RequestOp.perform, form]
  | bound => exact bound
  | _ =>
      simp only [RequestOp.perform, request, RequestView.scheme, RequestView.host, RequestView.uri, RequestView.userAgent,
        RequestView.cookie?]

end Tells

end RequestView

/-- What is done with a view of a request, and with the views that it gave back: those are bound again, or any others
are. -/
inductive RequestAct
  | bind (request : Request)
  | bindOthers (request : Request) (fields : FieldsView) (url : UrlView)
  | release
  | ask (op : RequestOp)
  | askFields (op : FieldsOp)
  | askUrl (op : UrlOp)

def RequestAct.bound (current : Option Request) : RequestAct → Option Request
  | bind request => some request
  | bindOthers request _ _ => some request
  | release => none
  | _ => current

namespace RequestSession

def next (session : RequestSession) : RequestAct → RequestSession
  | .bind request =>
    ⟨session.view.bind request (session.fields.bind request.fields) (session.url.bind request.uri), .unbound, .unbound⟩
  | .bindOthers request fields url =>
    { session with view := session.view.bind request (fields.bind request.fields) (url.bind request.uri) }
  | .release => ⟨session.view.release.1, session.view.release.2.1, session.view.release.2.2⟩
  | .ask op => { session with view := (op.perform session.view).2 }
  | .askFields op => { session with fields := (op.perform session.fields).2 }
  | .askUrl op => { session with url := (op.perform session.url).2 }

def after (session : RequestSession) (acts : List RequestAct) : RequestSession := acts.foldl next session

structure Tells (session : RequestSession) (current : Option Request) : Prop where
  view : session.view.Tells current
  spare : (⟨none, session.fields, session.url, [], false⟩ : RequestView).Tells none

variable {session : RequestSession} {current : Option Request}

theorem Tells.next (tells : session.Tells current) (act : RequestAct) : (session.next act).Tells (act.bound current) := by
  cases act with
  | bind request => exact ⟨session.view.tells_bind request session.fields session.url, RequestView.tells_unbound⟩
  | bindOthers request fields url => exact ⟨session.view.tells_bind request fields url, tells.spare⟩
  | release => exact ⟨RequestView.tells_unbound, RequestView.tells_unbound⟩
  | ask op => exact { tells with view := tells.view.perform op }
  | askFields op => exact { tells with spare := tells.spare.perform (.fields op) }
  | askUrl op => exact { tells with spare := tells.spare.perform (.url op) }

theorem Tells.after (tells : session.Tells current) (acts : List RequestAct) :
    (session.after acts).Tells (acts.foldl RequestAct.bound current) := by
  induction acts generalizing session current with
  | nil => exact tells
  | cons act rest ih => exact ih (tells.next act)

/-- Whatever a view of a request went through, it answers as a view does that was never bound before; so do the views
that it gave back. The form holds the fields of the body, if the request sends a form, and then those of the query; a
name stands for the first of its values. -/
theorem answers_after (acts : List RequestAct) :
    let session := start.after acts
    let current := acts.foldl RequestAct.bound none
    let params := (RequestOp.formParams.perform session.view).1
    let query := ((RequestOp.url .queryParams).perform session.view).1
    (∀ op : RequestOp, (op.perform session.view).1 = (op.perform (RequestView.fresh current)).1) ∧
      (∀ op : FieldsOp, (op.perform session.fields).1 = (op.perform .unbound).1) ∧
      (∀ op : UrlOp, (op.perform session.url).1 = (op.perform .unbound).1) ∧
      (∀ request, current = some request → request.SendsForm → params = Form.decode request.body ++ query) ∧
      ((∀ request, current = some request → ¬request.SendsForm) → params = query) ∧
      (∀ name value, ((RequestOp.formValue name).perform session.view).1 = some value ↔
        ∃ front back, params = front ++ (name, value) :: back ∧ ∀ param ∈ front, param.1 ≠ name) ∧
      ∀ name value, ((RequestOp.url (.queryParam name)).perform session.view).1 = some value ↔
        ∃ front back, query = front ++ (name, value) :: back ∧ ∀ param ∈ front, param.1 ≠ name := by
  intro session current params query
  have initial : start.Tells none := ⟨RequestView.tells_unbound, RequestView.tells_unbound⟩
  have tells : session.Tells current := initial.after acts
  have fresh := RequestView.tells_fresh current
  have spare := tells.spare
  have form : params = RequestView.formOf (current.getD .blank) := tells.view.form_decode
  have asked : query = (RequestView.fresh current).url.currentParams := by
    rw [← fresh.query.decode.1]
    exact tells.view.answer_congr fresh (.url .queryParams)
  have answered (request : Request) (bound : current = some request) :
      params = (if RequestView.isForm request then Form.decode request.body else []) ++ query := by
    rw [form, asked, bound]
    rfl
  refine ⟨tells.view.answer_congr fresh, fun op => ?_, fun op => ?_, fun request bound sends => ?_, fun sendsNone => ?_,
    fun name value => Form.lookup?_eq_some_iff params name value,
    fun name value => Form.lookup?_eq_some_iff query name value⟩
  · exact spare.answer_congr RequestView.tells_unbound (.fields op)
  · exact spare.answer_congr RequestView.tells_unbound (.url op)
  · rw [answered request bound, if_pos ((RequestView.isForm_iff request).mpr sends)]
  · cases bound : current with
    | none =>
        rw [form, asked, bound]
        rfl
    | some request =>
        have none : ¬RequestView.isForm request = true := fun form =>
          sendsNone request bound ((RequestView.isForm_iff request).mp form)
        rw [answered request bound, if_neg none, List.nil_append]

end RequestSession

end HttpService
