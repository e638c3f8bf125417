import MiniMs.Library.JsonStops

/-!
Texts with a string that is cut in front of a quotation mark, and what can stand
behind that mark.

Owns: the endings that close one object and do nothing else, and the theorem
that one such ending is as good as another.
-/

namespace MiniMs.Library.Json

open MiniMs.Library.Text

/-! ### Two endings of a text -/

section Endings

variable {float : PyStr → Numeral} {left right : PyStr}

/-- A string of the text ends in the text, at its last quotation mark, or
behind it. -/
theorem readsString_exchange {text rest : PyStr} (reads : ReadsString (text ++ 34 :: left) rest) :
    (∃ kept, rest = kept ++ 34 :: left ∧ ReadsString (text ++ 34 :: right) (kept ++ 34 :: right)) ∨
      rest = left ∧ ReadsString (text ++ 34 :: right) right ∨ ReadsString left rest := by
  obtain ⟨fuel, read, scan⟩ := reads
  induction fuel generalizing text read with
  | zero => contradiction
  | succ fuel inductionHypothesis =>
      have quote : (34 : CodePoint).val = 34 := rfl
      cases text with
      | nil =>
          rw [List.nil_append, scanString, if_pos quote] at scan
          refine Or.inr (Or.inl ⟨(Prod.mk.inj (Option.some.inj scan)).2.symm, 1, [], ?_⟩)
          rw [List.nil_append, scanString, if_pos quote]
      | cons point text =>
          rw [List.cons_append, scanString] at scan
          by_cases isQuote : point.val = 34
          · rw [if_pos isQuote] at scan
            refine Or.inl ⟨text, (Prod.mk.inj (Option.some.inj scan)).2.symm, 1, [], ?_⟩
            rw [List.cons_append, scanString, if_pos isQuote]
          rw [if_neg isQuote] at scan
          by_cases backslash : point.val = 92
          · rw [if_pos backslash] at scan
            simp only [Option.bind_eq_bind, Option.bind_eq_some_iff] at scan
            obtain ⟨⟨character, rest'⟩, escape, ⟨later, last⟩, scan, same⟩ := scan
            obtain rfl : last = rest := (Prod.mk.inj (Option.some.inj same)).2
            cases text with
            | nil =>
                -- The last quotation mark is escaped, and the string goes on behind it.
                obtain rfl : left = rest' := (Prod.mk.inj (Option.some.inj escape)).2
                exact Or.inr (Or.inr ⟨fuel, later, scan⟩)
            | cons next text =>
                have nonempty : next :: text ≠ [] := List.cons_ne_nil _ _
                rw [scanEscape_quote left nonempty] at escape
                obtain ⟨⟨character', kept⟩, escape', same'⟩ := Option.map_eq_some_iff.mp escape
                obtain ⟨rfl, rfl⟩ := Prod.mk.inj same'
                have again : ∀ rest, ReadsString (kept ++ 34 :: right) rest →
                    ReadsString (point :: (next :: text) ++ 34 :: right) rest := by
                  rintro rest ⟨more, tail, scan⟩
                  refine ⟨more + 1, character' :: tail, ?_⟩
                  rw [List.cons_append, scanString, if_neg isQuote, if_pos backslash,
                    scanEscape_quote right nonempty, escape']
                  simp only [Option.map_some, addRest, Option.bind_eq_bind, Option.bind_some, scan]
                rcases inductionHypothesis later scan with
                  ⟨kept', inside, reads⟩ | ⟨atEnd, reads⟩ | beyond
                · exact Or.inl ⟨kept', inside, again _ reads⟩
                · exact Or.inr (Or.inl ⟨atEnd, again _ reads⟩)
                · exact Or.inr (Or.inr beyond)
          rw [if_neg backslash] at scan
          by_cases control : point.val < 32
          · rw [if_pos control] at scan
            contradiction
          · rw [if_neg control] at scan
            simp only [Option.bind_eq_bind, Option.bind_eq_some_iff] at scan
            obtain ⟨⟨later, last⟩, scan, same⟩ := scan
            obtain rfl : last = rest := (Prod.mk.inj (Option.some.inj same)).2
            have again : ∀ rest, ReadsString (text ++ 34 :: right) rest →
                ReadsString (point :: text ++ 34 :: right) rest := by
              rintro rest ⟨more, tail, scan⟩
              refine ⟨more + 1, point :: tail, ?_⟩
              rw [List.cons_append, scanString, if_neg isQuote, if_neg backslash, if_neg control]
              simp only [Option.bind_eq_bind, Option.bind_some, scan]
            rcases inductionHypothesis later scan with
              ⟨kept', inside, reads⟩ | ⟨atEnd, reads⟩ | beyond
            · exact Or.inl ⟨kept', inside, again _ reads⟩
            · exact Or.inr (Or.inl ⟨atEnd, again _ reads⟩)
            · exact Or.inr (Or.inr beyond)

/-- Nothing that can follow a key, a member or an item follows. -/
def Stuck (text : PyStr) : Prop :=
  ∀ point, (skipSpace text).head? = some point → point ∉ ([44, 58, 93, 125] : PyStr)

theorem stuck_nil : Stuck [] := fun _ nothing => by contradiction

variable (float) in
/-- An ending that closes one object behind a string in it and does nothing
else: it does not fit behind an item or a key, and a string that runs into it
leaves nothing that fits. -/
structure Closing (ending : PyStr) : Prop where
  closes : ∀ rest, Reads float .afterMember (skipSpace ending) rest ↔ rest = []
  noItem : ∀ rest, ¬ Reads float .afterItem (skipSpace ending) rest
  noKey : ∀ rest, skipSpace ending ≠ 58 :: rest
  noString : ∀ rest, ReadsString ending rest → Stuck rest

theorem skipSpace_quote (text more : PyStr) :
    skipSpace (text ++ 34 :: more) = skipSpace text ++ 34 :: more := by
  induction text with
  | nil => exact skipSpace_cons (by decide) more
  | cons point text inductionHypothesis =>
      unfold skipSpace at inductionHypothesis ⊢
      rw [List.cons_append, List.dropWhile_cons, List.dropWhile_cons, inductionHypothesis]
      split
      · rfl
      · rfl

theorem Reads.not_stuck {piece : Piece} {text rest : PyStr}
    (reads : Reads float piece (skipSpace text) rest)
    (after : piece = .afterMember ∨ piece = .afterItem) : ¬ Stuck text := by
  intro stuck
  unfold Stuck at stuck
  generalize skipSpace text = whole at reads stuck
  cases reads with
  | lastMember => exact stuck 125 rfl (by decide)
  | nextMember next => exact stuck 44 rfl (by decide)
  | lastItem => exact stuck 93 rfl (by decide)
  | nextItem next => exact stuck 44 rfl (by decide)
  | string | emptyObject | object | emptyArray | array | atom | member | item => simp at after

theorem not_stuck_colon {text rest : PyStr} (colon : skipSpace text = 58 :: rest) : ¬ Stuck text :=
  fun stuck => stuck 58 (by rw [colon, List.head?_cons]) (by decide)

variable (float left right) in
/-- How a piece of a text runs over the end of the text. -/
def Leaves : Piece → PyStr → PyStr → Prop
  | .value, text, rest => rest = left ∧ Reads float .value (text ++ 34 :: right) right ∨ Stuck rest
  | .members, text, rest => rest = [] ∧ Reads float .members (text ++ 34 :: right) []
  | .afterMember, text, rest => rest = [] ∧ Reads float .afterMember (text ++ 34 :: right) []
  | .items, _, _ => False
  | .afterItem, _, _ => False

/-- A text in front of a quotation mark that starts with another character. -/
theorem text_eq_cons {text more rest : PyStr} {point : CodePoint} (other : point ≠ 34)
    (same : point :: rest = text ++ 34 :: more) :
    ∃ text', text = point :: text' ∧ rest = text' ++ 34 :: more := by
  cases text with
  | nil => exact absurd (List.cons.inj same).1 other
  | cons first text =>
      obtain ⟨rfl, rfl⟩ := List.cons.inj same
      exact ⟨text, rfl, rfl⟩

/-- Where one ending is exchanged for another, a piece that ends in the text
ends where it did, and an object that the first ending closes is closed by the
other. -/
theorem reads_exchange (closing : Closing float left) (closing' : Closing float right)
    {piece : Piece} {whole rest : PyStr} (reads : Reads float piece whole rest) :
    ∀ text, whole = text ++ 34 :: left →
      (∃ kept, rest = kept ++ 34 :: left ∧
        Reads float piece (text ++ 34 :: right) (kept ++ 34 :: right)) ∨
      Leaves float left right piece text rest := by
  induction reads with
  | @string rest' rest read =>
      intro text same
      cases text with
      | nil =>
          obtain rfl : rest' = left := (List.cons.inj same).2
          exact Or.inr (Or.inr (closing.noString _ read))
      | cons point text =>
          obtain ⟨rfl, rfl⟩ := List.cons.inj same
          rcases @readsString_exchange left right _ _ read with
            ⟨kept, inside, reads⟩ | ⟨atEnd, reads⟩ | beyond
          · exact Or.inl ⟨kept, inside, .string reads⟩
          · exact Or.inr (Or.inl ⟨atEnd, .string reads⟩)
          · exact Or.inr (Or.inr (closing.noString _ beyond))
  | @emptyObject behind rest closes =>
      intro text same
      obtain ⟨text, rfl, rfl⟩ := text_eq_cons (by decide) same
      rw [skipSpace_quote] at closes
      obtain ⟨kept, shape, rest_eq⟩ := text_eq_cons (by decide) closes.symm
      refine Or.inl ⟨kept, rest_eq, ?_⟩
      rw [List.cons_append]
      exact .emptyObject (by rw [skipSpace_quote, shape, List.cons_append])
  | @object behind rest inner inductionHypothesis =>
      intro text same
      obtain ⟨text, rfl, rfl⟩ := text_eq_cons (by decide) same
      rcases inductionHypothesis _ (skipSpace_quote text left) with
        ⟨kept, inside, reads⟩ | ⟨rfl, -⟩
      · refine Or.inl ⟨kept, inside, ?_⟩
        rw [← skipSpace_quote] at reads
        rw [List.cons_append]
        exact .object reads
      · exact Or.inr (Or.inr stuck_nil)
  | @emptyArray behind rest closes =>
      intro text same
      obtain ⟨text, rfl, rfl⟩ := text_eq_cons (by decide) same
      rw [skipSpace_quote] at closes
      obtain ⟨kept, shape, rest_eq⟩ := text_eq_cons (by decide) closes.symm
      refine Or.inl ⟨kept, rest_eq, ?_⟩
      rw [List.cons_append]
      exact .emptyArray (by rw [skipSpace_quote, shape, List.cons_append])
  | @array behind rest opens inner inductionHypothesis =>
      intro text same
      obtain ⟨text, rfl, rfl⟩ := text_eq_cons (by decide) same
      rw [skipSpace_quote] at opens
      rcases inductionHypothesis _ (skipSpace_quote text left) with ⟨kept, inside, reads⟩ | never
      · refine Or.inl ⟨kept, inside, ?_⟩
        have opens' : (skipSpace (text ++ 34 :: right)).head? ≠ some 93 := by
          rw [skipSpace_quote]
          cases shape : skipSpace text with
          | nil => simp
          | cons point inner =>
              rw [shape] at opens
              exact opens
        rw [← skipSpace_quote] at reads
        rw [List.cons_append]
        exact .array opens' reads
      · exact never.elim
  | @atom point behind rest value other read =>
      intro text same
      obtain ⟨text, rfl, rfl⟩ := text_eq_cons other.1 same
      rw [atom_foreign foreign_quote left float other] at read
      obtain ⟨⟨value', kept⟩, read', same'⟩ := Option.map_eq_some_iff.mp read
      obtain ⟨rfl, rfl⟩ := Prod.mk.inj same'
      have read'' : scanOnce float 1 (point :: (text ++ 34 :: right)) =
          some (value', kept ++ 34 :: right) := by
        rw [atom_foreign foreign_quote right float other, read']
        rfl
      exact Or.inl ⟨kept, rfl, .atom other read''⟩
  | @member behind colon afterColon after rest key colon_eq value later readValue readLater =>
      intro text same
      cases text with
      | nil =>
          obtain rfl : behind = left := (List.cons.inj same).2
          exact absurd (closing.noString _ key) (not_stuck_colon colon_eq)
      | cons point text =>
          obtain ⟨rfl, rfl⟩ := List.cons.inj same
          rcases @readsString_exchange left right _ _ key with
            ⟨kept, rfl, key'⟩ | ⟨rfl, -⟩ | beyond
          · rw [skipSpace_quote] at colon_eq
            obtain ⟨inner, shape, rfl⟩ := text_eq_cons (by decide) colon_eq.symm
            have colon' : skipSpace (kept ++ 34 :: right) = 58 :: (inner ++ 34 :: right) := by
              rw [skipSpace_quote, shape, List.cons_append]
            rcases readValue _ (skipSpace_quote inner left) with
              ⟨last, rfl, value'⟩ | ⟨rfl, value'⟩ | stuck
            · rw [← skipSpace_quote] at value'
              rcases readLater _ (skipSpace_quote last left) with
                ⟨kept', inside, later'⟩ | ⟨ended, later'⟩
              · rw [← skipSpace_quote] at later'
                exact Or.inl ⟨kept', inside, .member key' colon' value' later'⟩
              · rw [← skipSpace_quote] at later'
                exact Or.inr ⟨ended, .member key' colon' value' later'⟩
            · rw [← skipSpace_quote] at value'
              have ended := (closing.closes rest).mp later
              exact Or.inr ⟨ended, .member key' colon' value' ((closing'.closes []).mpr rfl)⟩
            · exact absurd stuck (later.not_stuck (Or.inl rfl))
          · exact absurd colon_eq (closing.noKey _)
          · exact absurd (closing.noString _ beyond) (not_stuck_colon colon_eq)
  | @lastMember rest =>
      intro text same
      obtain ⟨text, rfl, rfl⟩ := text_eq_cons (by decide) same
      exact Or.inl ⟨text, rfl, .lastMember⟩
  | @nextMember behind rest next inductionHypothesis =>
      intro text same
      obtain ⟨text, rfl, rfl⟩ := text_eq_cons (by decide) same
      rcases inductionHypothesis _ (skipSpace_quote text left) with
        ⟨kept, inside, reads⟩ | ⟨ended, reads⟩
      · rw [← skipSpace_quote] at reads
        exact Or.inl ⟨kept, inside, .nextMember reads⟩
      · rw [← skipSpace_quote] at reads
        exact Or.inr ⟨ended, .nextMember reads⟩
  | @item behind after rest value later readValue readLater =>
      intro text same
      subst same
      rcases readValue _ rfl with ⟨last, rfl, value'⟩ | ⟨rfl, -⟩ | stuck
      · rcases readLater _ (skipSpace_quote last left) with ⟨kept', inside, later'⟩ | never
        · rw [← skipSpace_quote] at later'
          exact Or.inl ⟨kept', inside, .item value' later'⟩
        · exact never.elim
      · exact absurd later (closing.noItem _)
      · exact absurd stuck (later.not_stuck (Or.inr rfl))
  | @lastItem rest =>
      intro text same
      obtain ⟨text, rfl, rfl⟩ := text_eq_cons (by decide) same
      exact Or.inl ⟨text, rfl, .lastItem⟩
  | @nextItem behind rest next inductionHypothesis =>
      intro text same
      obtain ⟨text, rfl, rfl⟩ := text_eq_cons (by decide) same
      rcases inductionHypothesis _ (skipSpace_quote text left) with ⟨kept, inside, reads⟩ | never
      · rw [← skipSpace_quote] at reads
        exact Or.inl ⟨kept, inside, .nextItem reads⟩
      · exact never.elim

/-- An object text is as good with one ending as with another. -/
theorem loads_isSome_exchange (closing : Closing float left) (closing' : Closing float right)
    (text : PyStr) :
    (loads float (123 :: 34 :: (text ++ 34 :: left))).isSome →
      (loads float (123 :: 34 :: (text ++ 34 :: right))).isSome := by
  have open_ : ∀ more, skipSpace (123 :: 34 :: (text ++ 34 :: more)) =
      123 :: 34 :: (text ++ 34 :: more) := fun more => skipSpace_cons (by decide) _
  have inner : ∀ more, skipSpace (34 :: (text ++ 34 :: more)) = (34 :: text) ++ 34 :: more :=
    fun more => skipSpace_cons (by decide) _
  rw [loads_isSome_iff, loads_isSome_iff, open_, open_]
  rintro ⟨bom, rest, reads, blank⟩
  refine ⟨bom, [], ?_, rfl⟩
  cases reads with
  | emptyObject closes =>
      rw [inner] at closes
      exact absurd (List.cons.inj closes).1 (by decide)
  | object members =>
      rw [inner] at members
      rcases reads_exchange closing closing' members _ rfl with ⟨kept, rfl, -⟩ | ⟨-, reads⟩
      · rw [skipSpace_quote] at blank
        simp at blank
      · apply Reads.object
        rw [inner]
        exact reads
  | atom other read => exact absurd rfl other.2.1

end Endings
end MiniMs.Library.Json
