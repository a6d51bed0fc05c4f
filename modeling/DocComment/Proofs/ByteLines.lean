import DocComment.Proofs.LineBreaks
import DocComment.Session

/-! Reading a comment from its bytes. No byte of another character is that of a line feed, so cutting the
bytes at the line feeds cuts between characters, and every piece is text. A session reads its comment in
this way and cannot fail to. -/
namespace DocComment

namespace Text

variable {c : Char} {bytes tail : List UInt8}

/-- No character but the line feed has its byte. -/
theorem feed_not_mem_utf8EncodeChar (other : c ≠ '\n') : (10 : UInt8) ∉ String.utf8EncodeChar c := by
  have code : c.val.toNat ≠ 10 := fun same => other (Char.ext (UInt32.toNat_inj.mp same))
  have differ : ∀ n : Nat, n < 256 → n ≠ 10 → (10 : UInt8) ≠ UInt8.ofNat n := by
    intro n small ne same
    have sizes := congrArg UInt8.toNat same
    rw [UInt8.toNat_ofNat_of_lt' small] at sizes
    exact ne sizes.symm
  rw [String.utf8EncodeChar]
  -- one byte, or a leading byte of 192 at least and then bytes of 128 at least
  split_ifs
  all_goals simp only [List.mem_cons, List.not_mem_nil, or_false, not_or]
  · exact differ _ (by omega) code
  · exact ⟨differ _ (by omega) (by omega), differ _ (by omega) (by omega)⟩
  · exact ⟨differ _ (by omega) (by omega), differ _ (by omega) (by omega), differ _ (by omega) (by omega)⟩
  · exact ⟨differ _ (by omega) (by omega), differ _ (by omega) (by omega), differ _ (by omega) (by omega),
      differ _ (by omega) (by omega)⟩

theorem feed_not_mem_utf8 {piece : Text} (absent : '\n' ∉ piece) : (10 : UInt8) ∉ utf8 piece := by
  intro inside
  obtain ⟨c, member, inside⟩ := List.mem_flatMap.mp inside
  refine feed_not_mem_utf8EncodeChar ?_ inside
  rintro rfl
  exact absent member

theorem utf8_append (s t : Text) : utf8 (s ++ t) = utf8 s ++ utf8 t := List.flatMap_append

theorem byteLines_append_feed (absent : (10 : UInt8) ∉ bytes) :
    byteLines (bytes ++ 10 :: tail) = (bytes ++ [10]) :: byteLines tail := by
  induction bytes with
  | nil => rw [List.nil_append, byteLines, if_pos rfl, List.nil_append]
  | cons b bytes ih =>
    obtain ⟨first, later⟩ := not_or.mp (mt List.mem_cons.mpr absent)
    rw [List.cons_append, byteLines, if_neg (Ne.symm first), ih later]
    rfl

theorem byteLines_eq_singleton (nonempty : bytes ≠ []) (absent : (10 : UInt8) ∉ bytes) :
    byteLines bytes = [bytes] := by
  induction bytes with
  | nil => contradiction
  | cons b bytes ih =>
    obtain ⟨first, later⟩ := not_or.mp (mt List.mem_cons.mpr absent)
    rw [byteLines, if_neg (Ne.symm first)]
    cases bytes with
    | nil => rfl
    | cons d ds => rw [ih (List.cons_ne_nil d ds) later]

theorem decodeLine_utf8 (line : Text) : decodeLine (utf8 line) = .ok (chomp line) := by
  have decoded : String.fromUTF8? (utf8 line).toByteArray = some (String.ofList line) := by
    have valid : (utf8 line).toByteArray.IsValidUTF8 := (String.ofList line).isValidUTF8
    rw [String.fromUTF8?, dif_pos valid]
    rfl
  rw [decodeLine, decoded]
  exact congrArg Except.ok (congrArg chomp String.toList_ofList)

/-- Only the break is taken from a line. -/
theorem chomp_append_feed {piece : Text} (returns : '\r' ∉ piece) : chomp (piece ++ ['\n']) = piece := by
  have noReturn : piece.getLast? ≠ some '\r' := fun last => returns (List.mem_of_getLast? last)
  rw [chomp, if_pos List.getLast?_concat, List.dropLast_concat, if_neg noReturn]

theorem chomp_eq_self {piece : Text} (feeds : '\n' ∉ piece) : chomp piece = piece := by
  rw [chomp, if_neg fun last => feeds (List.mem_of_getLast? last)]

/-- Cutting the bytes at the line feeds cuts between characters, so every line is decoded. -/
theorem readLines_pieces {pieces : List Text} {last : Text} (feeds : ∀ piece ∈ pieces, '\n' ∉ piece)
    (returns : '\r' ∉ pieces.flatMap (· ++ ['\n']) ++ last) (lastFeeds : '\n' ∉ last) :
    readLines (utf8 (pieces.flatMap (· ++ ['\n']) ++ last)) =
      .ok (cut '\n' (pieces.flatMap (· ++ ['\n']) ++ last)) := by
  rw [cut_flatMap feeds, readLines]
  induction pieces with
  | nil =>
    rw [List.flatMap_nil, List.nil_append, List.nil_append]
    cases last with
    | nil => rfl
    | cons c cs =>
      have nonempty : utf8 (c :: cs) ≠ [] := List.append_ne_nil_of_left_ne_nil String.utf8EncodeChar_ne_nil _
      rw [byteLines_eq_singleton nonempty (feed_not_mem_utf8 lastFeeds),
        cut_eq_singleton (List.cons_ne_nil c cs) lastFeeds, List.mapM_cons, decodeLine_utf8, chomp_eq_self lastFeeds]
      rfl
  | cons piece pieces ih =>
    obtain ⟨first, later⟩ := List.forall_mem_cons.mp feeds
    rw [List.flatMap_cons, List.append_assoc, List.append_assoc, List.mem_append, not_or] at returns
    have rest := ih later fun inside => returns.2 (List.mem_append_right ['\n'] inside)
    have bytes : utf8 ((piece :: pieces).flatMap (· ++ ['\n']) ++ last) =
        utf8 piece ++ 10 :: utf8 (pieces.flatMap (· ++ ['\n']) ++ last) := by
      rw [List.flatMap_cons, List.append_assoc, List.append_assoc, utf8_append, utf8_append]
      rfl
    have line : utf8 piece ++ [10] = utf8 (piece ++ ['\n']) := (utf8_append piece ['\n']).symm
    rw [bytes, byteLines_append_feed (feed_not_mem_utf8 first), List.mapM_cons, rest, line, decodeLine_utf8,
      chomp_append_feed returns.1]
    rfl

/-- All lines of a text can be read from its bytes once its breaks are written alike. -/
theorem readLines_unifyBreaks (text : Text) : readLines (utf8 (unifyBreaks text)) = .ok (lines text) := by
  obtain ⟨pieces, last, feeds, lastFeeds, same⟩ := exists_pieces '\n' (unifyBreaks text)
  have returns := not_mem_unifyBreaks text
  rw [same] at returns
  rw [lines, same, readLines_pieces feeds returns lastFeeds]

end Text

namespace Session

theorem readComment_eq (comment : Text) : readComment comment = .ok comment.lines := by
  rw [readComment, Text.readLines_unifyBreaks]
  rfl

/-- What a session answers when its comment is read without a failure, which is always. -/
theorem render_of_ready {s : Session} {comment : Text} (held : s.comment = some comment)
    (ready : s.rendered = false) : s.render = (.ok ((s.assemble comment.lines).document s.markup),
      { s with rendered := true, assembler := s.assemble comment.lines }) := by
  simp only [render, held, ready, readComment_eq, Bool.false_eq_true, if_false]

theorem render_of_fresh (m : Markup) (comment : Text) :
    ((({ markup := m } : Session).set comment).render).1 = .ok (DocComment.render m comment) := by
  rw [render_of_ready rfl rfl]
  rfl

theorem events_of_fresh (m : Markup) (comment : Text) :
    (({ markup := m } : Session).set comment).events = renderEvents m comment := by
  simp only [events, set, readComment_eq, Bool.false_eq_true, if_false]
  rfl

/-- There is one way only to fail, and then nothing changes. -/
theorem render_ok_or_again (s : Session) :
    (∃ document after, s.render = (.ok document, after)) ∨ s.render = (.error .alreadyRendered, s) := by
  cases held : s.comment with
  | none => exact .inl ⟨[], s, by simp only [render, held]⟩
  | some comment =>
    cases ready : s.rendered with
    | true => exact .inr (by simp only [render, held, ready, if_true])
    | false => exact .inl ⟨_, _, render_of_ready held ready⟩

/-- No session ever finds its comment unreadable. -/
theorem render_ne_unreadable (s : Session) (cause : Text) : s.render.1 ≠ .error (.unreadable cause) := by
  rcases s.render_ok_or_again with ⟨document, after, same⟩ | same
  · rw [same]
    exact nofun
  · rw [same]
    exact nofun

end Session
end DocComment
