import HttpService.Bytes

/-! UTF-8: what a byte string says, where it is sound and where it is not. -/

namespace HttpService

namespace Utf8

structure Lead where
  following : Nat
  low : UInt8
  high : UInt8
deriving DecidableEq, Repr

def lead? (byte : UInt8) : Option Lead :=
  if byte < 0xC2 then none
  else if byte ≤ 0xDF then some ⟨1, 0x80, 0xBF⟩
  else if byte == 0xE0 then some ⟨2, 0xA0, 0xBF⟩
  else if byte == 0xED then some ⟨2, 0x80, 0x9F⟩
  else if byte ≤ 0xEF then some ⟨2, 0x80, 0xBF⟩
  else if byte == 0xF0 then some ⟨3, 0x90, 0xBF⟩
  else if byte ≤ 0xF3 then some ⟨3, 0x80, 0xBF⟩
  else if byte == 0xF4 then some ⟨3, 0x80, 0x8F⟩
  else none

def isFollowing (byte : UInt8) : Bool := 0x80 ≤ byte && byte ≤ 0xBF

def payload (byte : UInt8) : Nat := byte.toNat % 64

/-- The characters of the content in order, with `none` for every longest piece that begins a character and
does not complete it, and for every byte that begins none. -/
def decode : Bytes → List (Option Char)
  | [] => []
  | first :: afterFirst =>
    if first < 0x80 then some (Char.ofNat first.toNat) :: decode afterFirst
    else
      match lead? first with
      | none => none :: decode afterFirst
      | some lead =>
        match afterFirst with
        | [] => [none]
        | second :: afterSecond =>
          if !(lead.low ≤ second && second ≤ lead.high) then none :: decode (second :: afterSecond)
          else if lead.following == 1 then
            some (Char.ofNat (first.toNat % 32 * 64 + payload second)) :: decode afterSecond
          else
            match afterSecond with
            | [] => [none]
            | third :: afterThird =>
              if !isFollowing third then none :: decode (third :: afterThird)
              else if lead.following == 2 then
                some (Char.ofNat (first.toNat % 16 * 4096 + payload second * 64 + payload third)) ::
                  decode afterThird
              else
                match afterThird with
                | [] => [none]
                | fourth :: afterFourth =>
                  if !isFollowing fourth then none :: decode (fourth :: afterFourth)
                  else
                    some (Char.ofNat (first.toNat % 8 * 262144 + payload second * 4096 +
                      payload third * 64 + payload fourth)) :: decode afterFourth

def isValid (content : Bytes) : Bool := (decode content).all Option.isSome

def text? (content : Bytes) : Option String := ((decode content).mapM id).map String.ofList

def lossy (content : Bytes) : String := String.ofList ((decode content).map fun piece => piece.getD '\uFFFD')

def encode (text : String) : Bytes := text.toList.flatMap String.utf8EncodeChar

theorem decode_of_ascii {first : UInt8} (small : first < 0x80) (rest : Bytes) :
    decode (first :: rest) = some (Char.ofNat first.toNat) :: decode rest := by
  rw [decode.eq_def]
  simp [small]

theorem isValid_ascii_append {content : Bytes} (small : ∀ byte ∈ content, byte < 0x80) (rest : Bytes) :
    isValid (content ++ rest) = isValid rest := by
  induction content with
  | nil => rfl
  | cons byte tail ih =>
      have tailSmall : ∀ later ∈ tail, later < 0x80 := fun later member => small later (by simp [member])
      have unfolded := decode_of_ascii (small byte (by simp)) (tail ++ rest)
      simp only [isValid, List.cons_append] at ih ⊢
      rw [unfolded]
      simpa using ih tailSmall

theorem decode_append {content : Bytes} (sound : isValid content = true) (rest : Bytes) :
    decode (content ++ rest) = decode content ++ decode rest := by
  unfold isValid at sound
  fun_induction decode content with
  | case1 => rfl
  | case2 first afterFirst small ih =>
      simp only [List.all_cons, Option.isSome_some, Bool.true_and] at sound
      simp only [List.cons_append, decode_of_ascii small, ih sound]
  | case6 first large lead announced second afterSecond bounded two ih =>
      simp only [List.all_cons, Option.isSome_some, Bool.true_and] at sound
      rw [List.cons_append, List.cons_append, decode.eq_def]
      simp only [large, announced, bounded, two, ↓reduceIte, Bool.false_eq_true, ih sound, List.cons_append]
  | case9 first large lead announced second bounded notTwo third afterThird follows three ih =>
      simp only [List.all_cons, Option.isSome_some, Bool.true_and] at sound
      simp only [List.cons_append]
      rw [decode.eq_def]
      simp only [large, announced, bounded, notTwo, follows, three, ↓reduceIte, Bool.false_eq_true, ih sound]
  | case12 first large lead announced second bounded notTwo third follows notThree fourth afterFourth
      followsToo ih =>
      simp only [List.all_cons, Option.isSome_some, Bool.true_and] at sound
      simp only [List.cons_append]
      rw [decode.eq_def]
      simp only [large, announced, bounded, notTwo, follows, notThree, followsToo, ↓reduceIte,
        Bool.false_eq_true, ih sound]
  | _ => simp at sound

theorem isValid_append {content : Bytes} (sound : isValid content = true) (rest : Bytes) :
    isValid (content ++ rest) = isValid rest := by
  unfold isValid at sound ⊢
  rw [decode_append sound, List.all_append, sound, Bool.true_and]
end Utf8

end HttpService
