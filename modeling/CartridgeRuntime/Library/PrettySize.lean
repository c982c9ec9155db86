import CartridgeRuntime.Library.CodecSize
import CartridgeRuntime.Library.PrettyJson
import Mathlib.Algebra.Order.BigOperators.Group.List

/-!
# Sizes of indented documents

The size of the indented text of a document, by the shape of the document. A member of an object
takes its line break, the indentation of its level, its key and value with a colon and a blank, and a
brace or a comma.
-/

namespace Encoding

open Std

/-- The number of bytes of the indented text of a document that starts at a level. -/
def Json.prettySize (level : Nat) (document : Json) : Nat :=
  byteLength (document.pretty level)

theorem byteLength_lineBreak (level : Nat) : byteLength (lineBreak level) = 2 * level + 1 := by
  have hline : Char.utf8Size '\n' = 1 := by decide
  have hspace : Char.utf8Size ' ' = 1 := by decide
  simp [lineBreak, byteLength, List.map_replicate, List.sum_replicate, hline, hspace, Nat.add_comm]

theorem Json.prettySize_str (level : Nat) (value : String) :
    (Json.str value).prettySize level = byteLength (stringText value) := by
  simp [prettySize, Json.pretty]

theorem Json.prettySize_num (level n : Nat) :
    (Json.num n).prettySize level = (decimal n).length := by
  simp [prettySize, Json.pretty, integerText, byteLength_decimal]

theorem Json.prettySize_obj_nil (level : Nat) : (Json.obj []).prettySize level = 2 := by
  simp [prettySize, Json.pretty, byteLength]
  decide

theorem byteLength_prettyMembers (level : Nat) (members : List (String × Json)) :
    byteLength (Json.prettyMembers level members)
      = (members.map fun member => byteLength (stringText member.1)
          + member.2.prettySize (level + 1) + 2 * level + 6).sum + 2 * level + 2 := by
  have hmark : Char.utf8Size ',' = 1 ∧ Char.utf8Size ':' = 1 ∧ Char.utf8Size ' ' = 1 ∧
      Char.utf8Size '}' = 1 := by decide
  obtain ⟨hcomma, hcolon, hblank, hbrace⟩ := hmark
  induction members with
  | nil =>
    simp only [Json.prettyMembers, byteLength_append, byteLength_lineBreak, byteLength_cons,
      byteLength_nil, hbrace, List.map_nil, List.sum_nil]
    omega
  | cons member members ih =>
    simp only [Json.prettyMembers, byteLength_append, byteLength_lineBreak, byteLength_cons,
      List.cons_append, hcomma, hcolon, hblank, ih, List.map_cons, List.sum_cons, Json.prettySize]
    omega

theorem Json.prettySize_obj {level : Nat} {members : List (String × Json)} (h : members ≠ []) :
    (Json.obj members).prettySize level
      = (members.map fun member => byteLength (stringText member.1)
          + member.2.prettySize (level + 1) + 2 * level + 6).sum + 2 * level + 2 := by
  cases members with
  | nil => exact (h rfl).elim
  | cons member members =>
    have hmark : Char.utf8Size '{' = 1 ∧ Char.utf8Size ':' = 1 ∧ Char.utf8Size ' ' = 1 := by
      decide
    obtain ⟨hbrace, hcolon, hblank⟩ := hmark
    simp only [prettySize, Json.pretty, byteLength_append, byteLength_lineBreak, byteLength_cons,
      List.cons_append, hbrace, hcolon, hblank, byteLength_prettyMembers, List.map_cons,
      List.sum_cons]
    omega

end Encoding
