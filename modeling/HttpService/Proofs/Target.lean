import HttpService.Proofs.Curtailment
import HttpService.Proofs.Grammar

/-! Request targets: the forms that are accepted, and what the path of a request begins with. -/

namespace HttpService

theorem Bytes.eq_of_lower {content marks : Bytes} (same : lower content = marks)
    (unlettered : ∀ mark ∈ marks, Ascii.isLower mark = false) : content = marks := by
  have kept : ∀ byte ∈ content, Ascii.toLower byte = byte := by
    intro byte member
    have checked := Ascii.holds_of_all
      (fun value => Ascii.isLower (Ascii.toLower value) || Ascii.toLower value == value) (by decide +kernel) byte
    have mark := unlettered (Ascii.toLower byte) (same ▸ List.mem_map_of_mem member)
    simpa [mark] using checked
  rw [← same, lower, List.map_congr_left kept, List.map_id']

namespace PathAndQuery

theorem path_split (content : Bytes) : (split content).path = content.takeWhile fun byte => !endsPath byte := by
  simp only [split]
  split
  · rename_i ended
    have parts := @List.takeWhile_append_dropWhile _ (fun byte => !endsPath byte) content
    rw [ended, List.append_nil] at parts
    exact parts.symm
  · rfl

theorem head?_shownPath {content : Bytes} {target : PathAndQuery} (accepted : ofBytes? content = some target)
    (begins : ∀ byte, content.head? = some byte → byte = slash ∨ endsPath byte = true) :
    target.shownPath.head? = some slash := by
  have path : target.path = content.takeWhile fun byte => !endsPath byte := by
    simp only [ofBytes?] at accepted
    split at accepted
    · obtain rfl := Option.some.inj accepted
      exact path_split content
    · simp at accepted
  rw [shownPath, path]
  cases content with
  | nil => rfl
  | cons byte rest =>
      rcases begins byte rfl with rfl | ends
      · have stays : endsPath slash = false := by decide
        simp [stays]
      · simp [ends]

end PathAndQuery

namespace Uri

def star : UInt8 := 0x2A

theorem exists_spelling {content scheme : Bytes} {count : Nat}
    (same : Bytes.lower (content.take count) = scheme ++ afterScheme) :
    ∃ spelling, content = spelling ++ afterScheme ++ content.drop count ∧ Bytes.lower spelling = scheme := by
  obtain ⟨spelling, mark, front, lowered, lastLowered⟩ := List.map_eq_append_iff.mp same
  obtain rfl : mark = afterScheme := Bytes.eq_of_lower lastLowered (by decide +kernel)
  refine ⟨spelling, ?_, lowered⟩
  rw [← front, List.take_append_drop]

theorem splitScheme?_eq_some {content scheme rest : Bytes} (found : splitScheme? content = some (scheme, rest)) :
    ∃ spelling, content = spelling ++ afterScheme ++ rest ∧ Bytes.sameIgnoringCase spelling scheme = true := by
  simp only [splitScheme?] at found
  split at found
  · rename_i http
    obtain ⟨rfl, rfl⟩ := Prod.mk.inj (Option.some.inj found)
    have parts : Ascii.bytes "http://" = Ascii.bytes "http" ++ afterScheme := by decide +kernel
    obtain ⟨spelling, shape, lowered⟩ := exists_spelling ((beq_iff_eq.mp http).trans parts)
    refine ⟨spelling, shape, beq_iff_eq.mpr ?_⟩
    rw [lowered]
    decide +kernel
  · split at found
    · rename_i https
      obtain ⟨rfl, rfl⟩ := Prod.mk.inj (Option.some.inj found)
      have parts : Ascii.bytes "https://" = Ascii.bytes "https" ++ afterScheme := by decide +kernel
      obtain ⟨spelling, shape, lowered⟩ := exists_spelling ((beq_iff_eq.mp https).trans parts)
      refine ⟨spelling, shape, beq_iff_eq.mpr ?_⟩
      rw [lowered]
      decide +kernel
    · split at found
      · simp at found
      · split at found
        · rename_i marked
          obtain ⟨rfl, rfl⟩ := Prod.mk.inj (Option.some.inj found)
          have front := List.prefix_iff_eq_append.mp (List.takeWhile_prefix (l := content) isSchemeByte)
          have mark := List.prefix_iff_eq_append.mp (List.isPrefixOf_iff_prefix.mp marked)
          refine ⟨content.takeWhile isSchemeByte, ?_, beq_iff_eq.mpr rfl⟩
          rw [List.append_assoc, show (3 : Nat) = afterScheme.length from by decide, mark, front]
        · simp at found

/-- The forms of a target: an asterisk, a path, or an absolute address. -/
inductive Form (target : Bytes) : Uri → Prop
  | asterisk (whole : target = [star]) : Form target .asterisk
  | origin {path : PathAndQuery} (begins : target.head? = some PathAndQuery.slash) : Form target (.origin path)
  | absolute {scheme authority : Bytes} {path : PathAndQuery} (spelling rest : Bytes)
      (shape : target = spelling ++ afterScheme ++ (authority ++ rest))
      (spelled : Bytes.sameIgnoringCase spelling scheme = true) (named : spelling ≠ []) (hosted : authority ≠ []) :
      Form target (.absolute scheme authority path)

inductive Schemeless (target : Bytes) : Uri → Prop
  | absolute {authority : Bytes} {path : PathAndQuery} (rest : Bytes)
      (shape : target = afterScheme ++ (authority ++ rest)) (hosted : authority ≠ []) :
      Schemeless target (.absolute [] authority path)

inductive Starred (target : Bytes) : Uri → Prop
  | authorityOnly (rest : Bytes) (shape : target = star :: rest) (more : rest ≠ []) :
      Starred target (.authorityOnly target)

def HasPath (uri : Uri) : Prop := uri.path = [star] ∨ uri.path.head? = some PathAndQuery.slash

/-- What a target that is accepted is, and what its path is. -/
def Admitted (target : Bytes) (uri : Uri) : Prop :=
  Form target uri ∧ uri.HasPath ∨ Schemeless target uri ∧ uri.HasPath ∨ Starred target uri ∧ uri.path = []

theorem begins_dropWhile {content : Bytes} {byte : UInt8}
    (first : (content.dropWhile fun byte => !Authority.endsAuthority byte).head? = some byte) :
    byte = PathAndQuery.slash ∨ PathAndQuery.endsPath byte = true := by
  have ends := List.head?_dropWhile_not (fun byte => !Authority.endsAuthority byte) content
  rw [first] at ends
  dsimp only at ends
  rw [Bool.not_eq_false', Authority.endsAuthority, Bool.or_assoc, Bool.or_eq_true, beq_iff_eq] at ends
  exact ends

theorem admitted_of_absolute {target scheme rest : Bytes} {uri : Uri}
    (found : splitScheme? target = some (scheme, rest)) (accepted : ofAddress? target = some uri) :
    Admitted target uri := by
  obtain ⟨spelling, shape, spelled⟩ := splitScheme?_eq_some found
  generalize authorityEq : (rest.takeWhile fun byte => !Authority.endsAuthority byte) = authority
  have parts : authority ++ rest.dropWhile (fun byte => !Authority.endsAuthority byte) = rest := by
    rw [← authorityEq]
    exact List.takeWhile_append_dropWhile
  have tail : rest.drop authority.length = rest.dropWhile fun byte => !Authority.endsAuthority byte := by
    conv => lhs; rw [← parts]
    exact List.drop_left
  simp only [ofAddress?, found, authorityEq, tail] at accepted
  split at accepted
  · simp at accepted
  · rename_i bounded
    have hosted : authority ≠ [] := by
      rintro rfl
      simp at bounded
    obtain ⟨path, kept, rfl⟩ := Option.map_eq_some_iff.mp accepted
    have hasPath : HasPath (.absolute scheme authority path) :=
      .inr (PathAndQuery.head?_shownPath kept fun _ first => begins_dropWhile first)
    rw [← parts] at shape
    by_cases named : spelling = []
    · subst named
      obtain rfl : scheme = [] := by
        have lowered : Bytes.lower [] = Bytes.lower scheme := beq_iff_eq.mp spelled
        exact List.map_eq_nil_iff.mp lowered.symm
      exact .inr (.inl ⟨.absolute _ shape hosted, hasPath⟩)
    · exact .inl ⟨.absolute spelling _ shape spelled named hosted, hasPath⟩

theorem admitted_of_ofBytes? {target : Bytes} {uri : Uri} (accepted : ofBytes? target = some uri)
    (form : target.head? = some PathAndQuery.slash ∨ target.head? = some star ∨ afterScheme <:+: target) :
    Admitted target uri := by
  simp only [ofBytes?] at accepted
  split at accepted
  · simp at accepted
  · cases target with
    | nil => simp at accepted
    | cons first rest =>
        dsimp only at accepted
        split at accepted
        · rename_i alone
          obtain ⟨rfl, rfl⟩ : first = star ∧ rest = [] := by simpa [star] using alone
          obtain rfl := Option.some.inj accepted
          exact .inl ⟨.asterisk rfl, .inl rfl⟩
        · rename_i notAlone
          split at accepted
          · rename_i slash
            obtain rfl : first = PathAndQuery.slash := beq_iff_eq.mp slash
            obtain ⟨path, kept, rfl⟩ := Option.map_eq_some_iff.mp accepted
            refine .inl ⟨.origin rfl, .inr (PathAndQuery.head?_shownPath kept ?_)⟩
            intro byte same
            exact .inl (Option.some.inj same).symm
          · rename_i noSlash
            cases found : splitScheme? (first :: rest) with
            | some parts => exact admitted_of_absolute found accepted
            | none =>
                simp only [ofAddress?, found] at accepted
                split at accepted
                · rename_i plain
                  obtain rfl := Option.some.inj accepted
                  rw [Bool.and_eq_true, List.all_eq_true] at plain
                  rcases form with origin | starred | ⟨front, back, marked⟩
                  · exact absurd (beq_iff_eq.mpr (Option.some.inj origin)) noSlash
                  · obtain rfl : first = star := Option.some.inj starred
                    have more : rest ≠ [] := by
                      rintro rfl
                      simp [star] at notAlone
                    exact .inr (.inr ⟨.authorityOnly rest rfl more, rfl⟩)
                  · have member : PathAndQuery.slash ∈ first :: rest := by
                      rw [← marked]
                      simp [afterScheme, Ascii.bytes, PathAndQuery.slash]
                    exact absurd (plain.1 _ member) (by decide)
                · simp at accepted

end Uri

theorem Head.admitted_of_read [FieldHash] {limits : RequestLimits} {buffer : Bytes} {stop : Nat} {head : Head}
    (accepted : read limits buffer stop = .ok head) :
    ∃ target behind, buffer.take stop = head.method.token ++ Ascii.space :: (target ++ Ascii.space :: behind) ∧
      Ascii.space ∉ target ∧ Uri.ofBytes? target = some head.uri ∧ head.uri.Admitted target := by
  obtain ⟨_, line, rest, method, uri, version, _, progress, cut, _, first, _, _, rfl⟩ :=
    read_eq_ok_iff_lines.mp (read_take accepted)
  obtain ⟨target, rfl, noSpace, targeted, _⟩ := readFirstLine_eq_ok_iff.mp first
  obtain ⟨_, form, known⟩ := readTarget_eq_ok_iff.mp targeted
  refine ⟨target, version.bytes ++ Ascii.crlf ++ rest, ?_, noSpace, known, Uri.admitted_of_ofBytes? known form⟩
  rw [cut]
  simp

namespace Connection

variable {τ : Type} {terms : Terms}

theorem exists_read_of_readRequest [FieldHash] {connection ready : Connection τ} {request : Request} {keepAlive : Bool}
    (found : connection.readRequest terms = .request request keepAlive ready) :
    ∃ content stop head body, Head.read terms.request content stop = .ok head ∧
      request = terms.requestOf head body := by
  simp only [readRequest] at found
  split at found
  · simp at found
  · simp at found
  · split at found
    · simp at found
    · rename_i head accepted
      simp only [readBody] at found
      split at found
      · obtain ⟨rfl, _⟩ := Next.request.inj found
        exact ⟨_, _, head, [], accepted, rfl⟩
      · split at found
        · simp at found
        · rename_i body _
          obtain ⟨rfl, _⟩ := Next.request.inj found
          exact ⟨_, _, head, body, accepted, rfl⟩

theorem admitted_of_readRequest [FieldHash] {connection ready : Connection τ} {request : Request} {keepAlive : Bool}
    (found : connection.readRequest terms = .request request keepAlive ready) :
    ∃ target, Uri.ofBytes? target = some request.uri ∧ request.uri.Admitted target := by
  obtain ⟨content, stop, head, body, accepted, rfl⟩ := exists_read_of_readRequest found
  obtain ⟨target, _, _, _, known, admitted⟩ := Head.admitted_of_read accepted
  exact ⟨target, known, admitted⟩

/-- Every target that is accepted has one of the three forms, but for two: an address with nothing in front of the
mark, and an authority behind an asterisk. The path of a request that a handler is called with is an asterisk or begins
with a slash, and it is empty just in the last case. -/
theorem admitted_of_noted [FieldHash] (terms : Terms) (serve : Serve ResponseBuffer τ) (source : Source)
    (outlet : Outlet) (memory : τ) :
    (∀ (limits : RequestLimits) (buffer : Bytes) (stop : Nat) (head : Head), Head.read limits buffer stop = .ok head →
      ∃ target behind, buffer.take stop = head.method.token ++ Ascii.space :: (target ++ Ascii.space :: behind) ∧
        Ascii.space ∉ target ∧ Uri.ofBytes? target = some head.uri ∧ head.uri.Admitted target) ∧
    ∀ request ∈ ((new terms source outlet (memory, [])).run terms serve.noting).2.memory.2,
      ∃ target, Uri.ofBytes? target = some request.uri ∧ request.uri.Admitted target := by
  constructor
  · intro limits buffer stop head accepted
    exact Head.admitted_of_read accepted
  · intro request member
    rw [noted_run] at member
    obtain ⟨call, inside, rfl⟩ := List.mem_map.mp member
    exact (course_serveAll terms serve.noting _ 0 _).forall_handled admitted_of_readRequest call inside

theorem admitted_of_noted_absolute :
    let terms : Terms := ⟨{}, {}, {}, ⟨none, false⟩, fun _ => 0⟩
    let serve : Serve ResponseBuffer Unit := fun request writer memory =>
      ⟨none, (writer.write request.uri.path).state, memory⟩
    let content := Ascii.bytes "GET HTTP://h?q#f HTTP/1.1\r\n\r\n"
    ∃ head target request, Head.read {} content content.length = .ok head ∧
      Uri.ofBytes? target = some head.uri ∧ head.uri.Admitted target ∧ head.uri.path = [PathAndQuery.slash] ∧
      request ∈ ((new terms [.piece content] .unlimited ((), [])).run terms serve.noting).2.memory.2 ∧
      ∃ asked, Uri.ofBytes? asked = some request.uri ∧ request.uri.Admitted asked := by
  intro terms serve content
  have told : (Head.read {} content content.length).toOption.map (fun head => head.uri.path) =
      some [PathAndQuery.slash] := by decide +kernel
  have count : (((new terms [.piece content] .unlimited ((), [])).run terms serve.noting).2.memory.2).length = 1 := by
    decide +kernel
  obtain ⟨heads, requests⟩ := admitted_of_noted terms serve [.piece content] .unlimited ()
  obtain ⟨request, alone⟩ := List.length_eq_one_iff.mp count
  have member : request ∈ ((new terms [.piece content] .unlimited ((), [])).run terms serve.noting).2.memory.2 := by
    simp [alone]
  cases accepted : Head.read {} content content.length with
  | error failure =>
      rw [accepted] at told
      simp [Except.toOption] at told
  | ok head =>
      rw [accepted] at told
      obtain ⟨target, _, _, _, known, admitted⟩ := heads {} content content.length head accepted
      exact ⟨head, target, request, rfl, known, admitted, Option.some.inj told, member, requests request member⟩

/-- The check of the first byte lets in an authority behind an asterisk, and the handler gets a request without a
path. -/
theorem path_eq_nil_of_starred :
    let terms : Terms := ⟨{}, {}, {}, ⟨none, false⟩, fun _ => 0⟩
    let serve : Serve ResponseBuffer Unit := fun request writer memory =>
      ⟨none, (writer.write request.uri.path).state, memory⟩
    let target := Ascii.bytes "*a"
    let content := Ascii.bytes "GET *a HTTP/1.1\r\n\r\n"
    (Head.read {} content content.length).toOption.map (fun head => head.uri) = some (.authorityOnly target) ∧
      ¬Uri.Form target (.authorityOnly target) ∧
      (((new terms [.piece content] .unlimited ((), [])).run terms serve.noting).2.memory.2).map
        (fun request => request.uri) = [.authorityOnly target] ∧
      Uri.path (.authorityOnly target) = [] := by
  intro terms serve target content
  refine ⟨by decide +kernel, ?_, by decide +kernel, rfl⟩
  rintro ⟨⟩

end Connection

end HttpService
