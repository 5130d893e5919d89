import Mathlib.Data.List.Basic

/-!
# Placeholders in Texts

Replacing a text in another one, from the left on, as the method of strings does. A template is a
series of pieces: a text as it is, or a placeholder `${key}`. If texts have no dollar sign, and keys
no closing brace either, then replacing the placeholder of a key fills just its placeholders, and
filling several keys one after another is the same as looking each placeholder up.
-/

namespace MonCTL

open List

/-- Replacing after some characters that belong to what has just been found. -/
def replaceFrom (old new : List Char) : ℕ → List Char → List Char
  | _, [] => []
  | skip + 1, _ :: cs => replaceFrom old new skip cs
  | 0, c :: cs =>
    if old.isPrefixOf (c :: cs) then new ++ replaceFrom old new (old.length - 1) cs
    else c :: replaceFrom old new 0 cs

/-- `str.replace`, of a text that is not empty. -/
def replaceAll (old new text : List Char) : List Char := replaceFrom old new 0 text

/-- `${key}`. -/
def placeholder (key : List Char) : List Char := '$' :: '{' :: (key ++ ['}'])

/-- A piece of a template. -/
inductive Piece
  | text (cs : List Char)
  | hole (key : List Char)

namespace Piece

/-- The text of a piece. -/
def chars : Piece → List Char
  | text cs => cs
  | hole key => placeholder key

/-- No placeholder begins in a text, and none ends in a key. -/
def Plain : Piece → Prop
  | text cs => '$' ∉ cs
  | hole key => '$' ∉ key ∧ '}' ∉ key

def fill (key value : List Char) : Piece → Piece
  | text cs => text cs
  | hole key' => if key' = key then text value else hole key'

/-- Every placeholder is looked up. -/
def fillAll (values : List (List Char × List Char)) : Piece → Piece
  | text cs => text cs
  | hole key =>
    match values.find? fun e => e.1 = key with
    | some e => text e.2
    | none => hole key

end Piece

/-- The text of a template. -/
def templateChars (pieces : List Piece) : List Char := pieces.flatMap Piece.chars

/-! ### Replacing -/

variable {old new : List Char}

theorem replaceFrom_append (skipped rest : List Char) :
    replaceFrom old new skipped.length (skipped ++ rest) = replaceAll old new rest := by
  induction skipped with
  | nil => rfl
  | cons c cs ih =>
    rw [length_cons, cons_append, replaceFrom]
    exact ih

theorem replaceAll_self_append (c : Char) (cs rest : List Char) :
    replaceAll (c :: cs) new (c :: cs ++ rest) = new ++ replaceAll (c :: cs) new rest := by
  have hprefix : (c :: cs).isPrefixOf (c :: (cs ++ rest)) = true :=
    isPrefixOf_iff_prefix.2 ⟨rest, rfl⟩
  rw [cons_append, replaceAll, replaceFrom, if_pos hprefix, length_cons,
    Nat.add_sub_cancel, replaceFrom_append]

theorem replaceAll_append_of_notMem {c : Char} {cs text : List Char} (h : c ∉ text)
    (rest : List Char) :
    replaceAll (c :: cs) new (text ++ rest) = text ++ replaceAll (c :: cs) new rest := by
  induction text with
  | nil => rfl
  | cons d text ih =>
    have hne : c ≠ d := fun heq => h (heq ▸ mem_cons_self)
    have hnot : ¬((c :: cs).isPrefixOf (d :: (text ++ rest)) = true) := by
      rw [ isPrefixOf_iff_prefix, cons_prefix_cons]
      exact fun hprefix => hne hprefix.1
    rw [cons_append, replaceAll, replaceFrom, if_neg hnot, cons_append]
    exact congrArg _ (ih fun hin => h (mem_cons_of_mem d hin))

theorem eq_of_prefix_brace {key key' rest : List Char} (hkey : '}' ∉ key) (hkey' : '}' ∉ key')
    (h : key ++ ['}'] <+: key' ++ '}' :: rest) : key = key' := by
  induction key generalizing key' with
  | nil =>
    cases key' with
    | nil => rfl
    | cons c cs =>
      rw [nil_append, cons_append, cons_prefix_cons] at h
      exact absurd (h.1 ▸ mem_cons_self) hkey'
  | cons c cs ih =>
    cases key' with
    | nil =>
      rw [nil_append, cons_append, cons_prefix_cons] at h
      exact absurd (h.1 ▸ mem_cons_self) hkey
    | cons c' cs' =>
      rw [cons_append, cons_append, cons_prefix_cons] at h
      rw [h.1, ih (fun hin => hkey (mem_cons_of_mem c hin))
        (fun hin => hkey' (mem_cons_of_mem c' hin)) h.2]

theorem replaceAll_placeholder_ne {key key' value : List Char} (hkey : '}' ∉ key)
    (hplain : (Piece.hole key').Plain) (hne : key' ≠ key) (rest : List Char) :
    replaceAll (placeholder key) value (placeholder key' ++ rest) =
      placeholder key' ++ replaceAll (placeholder key) value rest := by
  have hnot : ¬((placeholder key).isPrefixOf (placeholder key' ++ rest) = true) := by
    rw [ isPrefixOf_iff_prefix, placeholder, placeholder, cons_append, cons_append,
      cons_prefix_cons, cons_prefix_cons, append_assoc]
    exact fun hprefix => hne (eq_of_prefix_brace hkey hplain.2 hprefix.2.2).symm
  have htail : '$' ∉ '{' :: (key' ++ ['}']) := by
    simp only [mem_cons, mem_append, not_mem_nil, or_false, not_or]
    exact ⟨by decide, hplain.1, by decide⟩
  have hsplit : placeholder key' ++ rest = '$' :: ('{' :: (key' ++ ['}']) ++ rest) := rfl
  rw [hsplit] at hnot ⊢
  rw [replaceAll, replaceFrom, if_neg hnot]
  exact congrArg _ (replaceAll_append_of_notMem htail rest)

/-- **Replacing the placeholder of a key** fills it, and changes nothing else. -/
theorem replaceAll_chars {key value : List Char} (hkey : '}' ∉ key) {pieces : List Piece}
    (hplain : ∀ p ∈ pieces, p.Plain) : replaceAll (placeholder key) value (templateChars pieces) =
      templateChars (pieces.map (Piece.fill key value)) := by
  induction pieces with
  | nil => rfl
  | cons p pieces ih =>
    have hrest := ih fun q hq => hplain q (mem_cons_of_mem p hq)
    have hp := hplain p mem_cons_self
    rw [templateChars, flatMap_cons, map_cons, templateChars, flatMap_cons]
    rw [templateChars, templateChars] at hrest
    cases p with
    | text cs =>
      rw [Piece.chars, placeholder, replaceAll_append_of_notMem hp, ← placeholder, hrest]
      rfl
    | hole key' =>
      rw [Piece.chars]
      by_cases heq : key' = key
      · rw [heq, Piece.fill, if_pos rfl, placeholder, replaceAll_self_append, ← placeholder, hrest]
        rfl
      · rw [replaceAll_placeholder_ne hkey hp heq, hrest, Piece.fill, if_neg heq]
        rfl

/-- Filling a placeholder with a plain text. -/
theorem Piece.Plain.fill {p : Piece} (hp : p.Plain) (key : List Char) {value : List Char}
    (hvalue : '$' ∉ value) : (p.fill key value).Plain := by
  cases p with
  | text cs => exact hp
  | hole key' =>
    rw [Piece.fill]
    split
    · exact hvalue
    · exact hp

theorem Piece.fillAll_fill (e : List Char × List Char) (values : List (List Char × List Char))
    (p : Piece) : (p.fill e.1 e.2).fillAll values = p.fillAll (e :: values) := by
  cases p with
  | text cs => rfl
  | hole key =>
    rw [Piece.fill]
    by_cases heq : key = e.1
    · rw [if_pos heq, Piece.fillAll, Piece.fillAll, find?_cons_of_pos (by simp [heq])]
    · rw [if_neg heq, Piece.fillAll, Piece.fillAll,
        find?_cons_of_neg (by simpa using fun h => heq h.symm)]

/-- **Replacing the placeholders of all keys**, one key after another. -/
theorem foldl_replaceAll_chars {values : List (List Char × List Char)}
    (hvalues : ∀ e ∈ values, '}' ∉ e.1 ∧ '$' ∉ e.2) {pieces : List Piece}
    (hplain : ∀ p ∈ pieces, p.Plain) :
    values.foldl (fun text e => replaceAll (placeholder e.1) e.2 text) (templateChars pieces) =
      templateChars (pieces.map (Piece.fillAll values)) := by
  induction values generalizing pieces with
  | nil =>
    have hid : pieces.map (Piece.fillAll []) = pieces := by
      rw [map_congr_left (g := id), map_id]
      intro p _
      cases p <;> rfl
    rw [foldl_nil, hid]
  | cons e values ih =>
    obtain ⟨hkey, hvalue⟩ := hvalues e mem_cons_self
    rw [foldl_cons, replaceAll_chars hkey hplain, ih
      (fun e' he' => hvalues e' (mem_cons_of_mem e he')), map_map]
    · congr 1
      refine map_congr_left fun p _ => ?_
      rw [Function.comp_apply, Piece.fillAll_fill]
    · intro p hp
      obtain ⟨q, hq, rfl⟩ := List.mem_map.1 hp
      exact (hplain q hq).fill e.1 hvalue

end MonCTL
