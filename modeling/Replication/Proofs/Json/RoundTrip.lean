import Replication.Json.Record
import Replication.Proofs.Json.Tokens

/-!
# Values that are written are read back

A value without doubles is read back from its compact text if it nests at most as deep as may be
read, and has no value otherwise (`Json.parse?_render`). The text itself is within the grammar in
both cases: what is too deep is read to its end and found unreadable.
-/

namespace Replication

/-! ## Objects from their members -/

namespace Object

theorem insert_append {o : Object} {key : String} (h : ∀ e ∈ o, e.1 < key) (v : Json) :
    insert key v o = o ++ [(key, v)] := by
  induction o with
  | nil => rfl
  | cons e o ih =>
    have hlt : e.1 < key := h e List.mem_cons_self
    have hne : key ≠ e.1 := fun heq => String.lt_irrefl key (heq ▸ hlt)
    rw [insert, if_neg hne, if_neg (String.lt_asymm hlt),
      ih fun e' he' => h e' (List.mem_cons_of_mem _ he'), List.cons_append]

/-- An object is that of its members, if their keys ascend. -/
theorem ofEntries_eq_self {o : Object} (h : o.Sorted) : ofEntries o = o := by
  have hall : ∀ done rest : Object, (done ++ rest).Sorted →
      rest.foldl (fun o e => insert e.1 e.2 o) done = done ++ rest := by
    intro done rest hsorted
    induction rest generalizing done with
    | nil => rw [List.foldl_nil, List.append_nil]
    | cons e rest ih =>
      have hbelow := (List.pairwise_append.1 hsorted).2.2
      rw [List.foldl_cons, insert_append fun e' he' => hbelow e' he' e List.mem_cons_self]
      rw [ih _ (by simpa using hsorted)]
      simp
  exact hall [] o h

end Object

namespace Json

open Syntax

/-- A value that is written without loss: its whole numbers fit in 64 bits, it has no doubles, and
the keys of its objects ascend. -/
inductive Proper : Json → Prop where
  | null : Proper .null
  | bool (b : Bool) : Proper (.bool b)
  | int {n : Int} : -(Word.size 63 : Int) ≤ n → n < Word.size 64 → Proper (.num (.int n))
  | str (s : String) : Proper (.str s)
  | arr {vs : List Json} : (∀ v ∈ vs, Proper v) → Proper (.arr vs)
  | obj {o : Object} : o.Sorted → (∀ e ∈ o, Proper e.2) → Proper (.obj o)

/-- A value is read back from the front of a text, whole or as too deep for what may be read. -/
def ReadsBack (v : Json) : Prop :=
  ∀ fuel room rest, (chars v).length ≤ fuel → Ends rest →
    ∃ t, value fuel room (chars v ++ rest) = some (t, rest) ∧
      t.value? = if v.depth ≤ room then some v else none

/-! ## One step of reading -/

/-- A character that no blank is and that closes nothing. -/
def Opens (c : Char) : Prop := c ∉ [' ', '\n', '\t', '\r', ']', '\x7d']

instance (c : Char) : Decidable (Opens c) := inferInstanceAs (Decidable (c ∉ _))

theorem Opens.skip {c : Char} (h : Opens c) (cs : List Char) : skip (c :: cs) = c :: cs := by
  simp only [Opens, List.mem_cons, List.not_mem_nil, or_false, not_or] at h
  simp [Syntax.skip, h]

theorem opens_of_isDigit {c : Char} (h : c.isDigit = true) : Opens c := by
  intro hc
  simp only [List.mem_cons, List.not_mem_nil, or_false] at hc
  rcases hc with rfl | rfl | rfl | rfl | rfl | rfl <;> exact absurd h (by decide)

theorem exists_chars_cons {v : Json} (h : v.Proper) : ∃ c cs, chars v = c :: cs ∧ Opens c := by
  cases h with
  | null => exact ⟨'n', _, by rw [chars], by decide⟩
  | bool b => cases b <;> exact ⟨_, _, by rw [chars], by decide⟩
  | @int n _ _ =>
    obtain ⟨c, cs, hcs, hc⟩ := exists_text_cons n
    exact ⟨c, cs, by rw [chars, hcs], hc.elim opens_of_isDigit fun h => h ▸ by decide⟩
  | str s => exact ⟨'"', _, by rw [chars, quote, List.cons_append], by decide⟩
  | @arr vs _ =>
    cases vs with
    | nil => exact ⟨'[', _, by rw [chars], by decide⟩
    | cons v vs => exact ⟨'[', _, by rw [chars, List.cons_append], by decide⟩
  | @obj o _ _ =>
    rcases o with _ | ⟨⟨k, v⟩, o⟩
    · exact ⟨'\x7b', _, by rw [chars], by decide⟩
    · exact ⟨'\x7b', _, by rw [chars, List.cons_append, List.cons_append], by decide⟩

theorem value_arr {c : Char} (h : Opens c) (fuel room : Nat) (cs : List Char) :
    value (fuel + 1) room ('[' :: c :: cs) =
      (items fuel (room - 1) (c :: cs)).map fun x => (within room (.arr x.1), x.2) := by
  have hclose : c ≠ ']' := by rintro rfl; exact h (by decide)
  simp [value, show skip ('[' :: c :: cs) = '[' :: c :: cs from rfl, h.skip, hclose]

theorem value_obj (fuel room : Nat) (cs : List Char) :
    value (fuel + 1) room ('\x7b' :: '"' :: cs) =
      (members fuel (room - 1) ('"' :: cs)).map fun x => (within room (.obj x.1), x.2) := rfl

theorem value_str {s : String} {cs rest : List Char} (h : string cs = some (some s, rest))
    (fuel room : Nat) : value (fuel + 1) room ('"' :: cs) = some (.str s, rest) := by
  simp [value, show skip ('"' :: cs) = '"' :: cs from rfl, h]

/-- A text that starts with a digit or a sign is that of a number. -/
theorem value_number {c : Char} (h : c.isDigit = true ∨ c = '-') (fuel room : Nat)
    (cs : List Char) : value (fuel + 1) room (c :: cs) = number? (c :: cs) := by
  have hopens : Opens c := h.elim opens_of_isDigit fun h => h ▸ by decide
  obtain ⟨hquote, hbracket, hbrace, hn, ht, hf⟩ :
      c ≠ '"' ∧ c ≠ '[' ∧ c ≠ '\x7b' ∧ c ≠ 'n' ∧ c ≠ 't' ∧ c ≠ 'f' := by
    refine ⟨?_, ?_, ?_, ?_, ?_, ?_⟩ <;> rintro rfl <;> exact absurd h (by decide)
  have hword : word? (c :: cs) = none := by
    rw [word?.eq_def]
    split
    · next heq => exact absurd (List.cons.inj heq).1 hn
    · next heq => exact absurd (List.cons.inj heq).1 ht
    · next heq => exact absurd (List.cons.inj heq).1 hf
    · rfl
  simp [value, hopens.skip, hquote, hbracket, hbrace, hword]

theorem items_last {t : Tree} {fuel room : Nat} {cs rest : List Char}
    (h : value fuel room cs = some (t, ']' :: rest)) :
    items (fuel + 1) room cs = some ([t], rest) := by
  rw [items, h]
  rfl

theorem items_more {t : Tree} {fuel room : Nat} {cs rest : List Char}
    (h : value fuel room cs = some (t, ',' :: rest)) :
    items (fuel + 1) room cs = (items fuel room rest).map fun x => (t :: x.1, x.2) := by
  rw [items, h]
  cases hrest : items fuel room rest <;> simp [skip, hrest]

section

variable {key : String} {t : Tree} {fuel room : Nat} {body cs rest : List Char}
  (hkey : string body = some (some key, ':' :: cs))

include hkey

theorem members_last (h : value fuel room cs = some (t, '\x7d' :: rest)) :
    members (fuel + 1) room ('"' :: body) = some ([(some key, t)], rest) := by
  simp [members, skip, hkey, h]

theorem members_more (h : value fuel room cs = some (t, ',' :: rest)) :
    members (fuel + 1) room ('"' :: body) =
      (members fuel room rest).map fun x => ((some key, t) :: x.1, x.2) := by
  cases hrest : members fuel room rest <;> simp [members, skip, hkey, h, hrest]

end

/-! ## Items and members -/

theorem ends_of_mem {c : Char} (h : c ∈ [',', ']', '\x7d']) (cs : List Char) : Ends (c :: cs) := by
  intro d hd
  obtain rfl := Option.some.inj hd
  simp only [List.mem_cons, List.not_mem_nil, or_false] at h
  rcases h with rfl | rfl | rfl <;> decide

section

variable {t : Tree} {v : Json} {room : Nat}
  (ht : t.value? = if v.depth ≤ room then some v else none)

include ht

theorem values?_cons {ts : List Tree} {vs : List Json}
    (hts : Tree.values? ts = if depthOfItems vs ≤ room then some vs else none) :
    Tree.values? (t :: ts) =
      if depthOfItems (v :: vs) ≤ room then some (v :: vs) else none := by
  rw [Tree.values?, ht, hts, depthOfItems]
  by_cases hv : v.depth ≤ room <;> by_cases hvs : depthOfItems vs ≤ room <;> simp [hv, hvs]

theorem entries?_cons (k : String) {ts : List (Option String × Tree)} {es : Object}
    (hts : Tree.entries? ts = if depthOfEntries es ≤ room then some es else none) :
    Tree.entries? ((some k, t) :: ts) =
      if depthOfEntries ((k, v) :: es) ≤ room then some ((k, v) :: es) else none := by
  rw [Tree.entries?, ht, hts, depthOfEntries]
  by_cases hv : v.depth ≤ room <;> by_cases hes : depthOfEntries es ≤ room <;> simp [hv, hes]

end

/-- Items that are read back one by one are read back up to their closing bracket. -/
theorem items_chars {v : Json} {vs : List Json} (h : ∀ w ∈ v :: vs, ReadsBack w)
    (fuel : Nat) (hfuel : (chars v ++ charsOfItems vs).length ≤ fuel) (room : Nat)
    (rest : List Char) :
    ∃ ts, items fuel room (chars v ++ charsOfItems vs ++ rest) = some (ts, rest) ∧
      Tree.values? ts = if depthOfItems (v :: vs) ≤ room then some (v :: vs) else none := by
  induction vs generalizing v fuel with
  | nil =>
    rw [charsOfItems, List.length_append, List.length_singleton] at hfuel
    obtain ⟨fuel, rfl⟩ : ∃ n, fuel = n + 1 := ⟨fuel - 1, by omega⟩
    obtain ⟨t, ht, hv⟩ := h v List.mem_cons_self fuel room (']' :: rest) (by omega)
      (ends_of_mem (by decide) _)
    refine ⟨[t], ?_, values?_cons hv (if_pos (Nat.zero_le room)).symm⟩
    rw [charsOfItems, List.append_assoc, List.singleton_append]
    exact items_last ht
  | cons w vs ih =>
    rw [charsOfItems, List.length_append, List.cons_append, List.length_cons] at hfuel
    obtain ⟨fuel, rfl⟩ : ∃ n, fuel = n + 1 := ⟨fuel - 1, by omega⟩
    obtain ⟨t, ht, hv⟩ := h v List.mem_cons_self fuel room
      (',' :: (chars w ++ charsOfItems vs ++ rest)) (by omega) (ends_of_mem (by decide) _)
    obtain ⟨ts, hts, hvs⟩ := ih (v := w)
      (fun x hx => h x (List.mem_cons_of_mem v hx)) fuel (by omega)
    refine ⟨t :: ts, ?_, values?_cons hv hvs⟩
    rw [charsOfItems, List.append_assoc, List.cons_append, List.cons_append, items_more ht, hts]
    rfl

/-- Members whose values are read back are read back up to their closing brace. -/
theorem members_chars {k : String} {v : Json} {es : Object}
    (h : ∀ e ∈ (k, v) :: es, ReadsBack e.2) (fuel : Nat)
    (hfuel : (quote k ++ ':' :: chars v ++ charsOfEntries es).length ≤ fuel) (room : Nat)
    (rest : List Char) :
    ∃ body ts, quote k ++ ':' :: chars v ++ charsOfEntries es ++ rest = '"' :: body ∧
      members fuel room ('"' :: body) = some (ts, rest) ∧
      Tree.entries? ts =
        if depthOfEntries ((k, v) :: es) ≤ room then some ((k, v) :: es) else none := by
  induction es generalizing k v fuel with
  | nil =>
    rw [charsOfEntries, List.length_append, List.length_append, List.length_cons,
      List.length_singleton] at hfuel
    obtain ⟨fuel, rfl⟩ : ∃ n, fuel = n + 1 := ⟨fuel - 1, by omega⟩
    have hback : ReadsBack v := h (k, v) List.mem_cons_self
    obtain ⟨t, ht, hv⟩ := hback fuel room ('\x7d' :: rest) (by omega) (ends_of_mem (by decide) _)
    obtain ⟨body, hbody, hkey⟩ := string_quote k (':' :: (chars v ++ '\x7d' :: rest))
    refine ⟨body, [(some k, t)], ?_, members_last hkey ht,
      entries?_cons hv k (if_pos (Nat.zero_le room)).symm⟩
    rw [← hbody, charsOfEntries]
    simp
  | cons e es ih =>
    obtain ⟨l, w⟩ := e
    rw [charsOfEntries, List.length_append, List.length_append, List.length_cons,
      List.cons_append, List.cons_append, List.length_cons] at hfuel
    obtain ⟨fuel, rfl⟩ : ∃ n, fuel = n + 1 := ⟨fuel - 1, by omega⟩
    obtain ⟨body', ts, hnext, hts, hes⟩ := ih (k := l) (v := w)
      (fun x hx => h x (List.mem_cons_of_mem _ hx)) fuel (by omega)
    have hback : ReadsBack v := h (k, v) List.mem_cons_self
    obtain ⟨t, ht, hv⟩ := hback fuel room (',' :: '"' :: body') (by omega)
      (ends_of_mem (by decide) _)
    obtain ⟨body, hbody, hkey⟩ := string_quote k (':' :: (chars v ++ ',' :: '"' :: body'))
    refine ⟨body, (some k, t) :: ts, ?_, ?_, entries?_cons hv k hes⟩
    · rw [← hbody, ← hnext, charsOfEntries]
      simp
    · rw [members_more hkey ht, hts]
      rfl

/-! ## Whole values -/

/-- What stands in an array or object may nest one level less than the array or object itself. -/
theorem value?_within {t : Tree} {v : Json} {depth room : Nat} (hv : v.depth = 1 + depth)
    (ht : t.value? = if depth ≤ room - 1 then some v else none) :
    (within room t).value? = if v.depth ≤ room then some v else none := by
  unfold within
  by_cases hroom : room = 0
  · rw [if_pos hroom, if_neg (by omega), Tree.value?]
  · have hiff : depth ≤ room - 1 ↔ v.depth ≤ room := by omega
    rw [if_neg hroom, ht]
    simp only [hiff]

theorem readsBack_of_succ {v : Json} (hv : v.Proper)
    (h : ∀ fuel room rest, (chars v).length ≤ fuel + 1 → Ends rest →
      ∃ t, value (fuel + 1) room (chars v ++ rest) = some (t, rest) ∧
        t.value? = if v.depth ≤ room then some v else none) : ReadsBack v := by
  intro fuel room rest hfuel hends
  cases fuel with
  | zero =>
    obtain ⟨c, cs, hcs, -⟩ := exists_chars_cons hv
    rw [hcs] at hfuel
    exact absurd hfuel (Nat.not_succ_le_zero _)
  | succ fuel => exact h fuel room rest hfuel hends

/-- A value that is written without loss is read back, whatever room there is. -/
theorem Proper.readsBack {v : Json} (h : v.Proper) : ReadsBack v := by
  induction h with
  | null => exact readsBack_of_succ .null fun fuel room rest _ _ => ⟨.null, rfl, rfl⟩
  | bool b =>
    refine readsBack_of_succ (.bool b) fun fuel room rest _ _ => ⟨.bool b, ?_, rfl⟩
    cases b <;> rfl
  | @int n hlow hhigh =>
    refine readsBack_of_succ (.int hlow hhigh) fun fuel room rest _ hends =>
      ⟨.num (.int n), ?_, rfl⟩
    obtain ⟨c, cs, hcs, hc⟩ := exists_text_cons n
    rw [chars, hcs, List.cons_append, value_number hc, ← List.cons_append, ← hcs]
    exact number?_text hlow hhigh hends
  | str s =>
    refine readsBack_of_succ (.str s) fun fuel room rest _ _ => ⟨.str s, ?_, rfl⟩
    obtain ⟨body, hbody, hs⟩ := string_quote s rest
    rw [chars, hbody]
    exact value_str hs fuel room
  | @arr vs hvs ih =>
    refine readsBack_of_succ (.arr hvs) fun fuel room rest hfuel _ => ?_
    cases vs with
    | nil => exact ⟨within room (.arr []), rfl, value?_within rfl (if_pos (Nat.zero_le _)).symm⟩
    | cons v vs =>
      rw [chars, List.cons_append, List.length_cons] at hfuel
      obtain ⟨ts, hts, hvalues⟩ := items_chars ih fuel (Nat.le_of_succ_le_succ hfuel) (room - 1) rest
      obtain ⟨c, cs, hcs, hopens⟩ := exists_chars_cons (hvs v List.mem_cons_self)
      refine ⟨within room (.arr ts), ?_, value?_within rfl ?_⟩
      · simp only [chars, hcs, List.cons_append] at hts ⊢
        rw [value_arr hopens, hts]
        rfl
      · rw [Tree.value?, hvalues]
        split <;> rfl
  | @obj o hsorted ho ih =>
    refine readsBack_of_succ (.obj hsorted ho) fun fuel room rest hfuel _ => ?_
    rcases o with _ | ⟨⟨k, v⟩, es⟩
    · exact ⟨within room (.obj []), rfl, value?_within rfl (if_pos (Nat.zero_le _)).symm⟩
    · rw [chars, List.cons_append, List.cons_append, List.length_cons] at hfuel
      obtain ⟨body, ts, hbody, hts, hentries⟩ :=
        members_chars ih fuel (Nat.le_of_succ_le_succ hfuel) (room - 1) rest
      refine ⟨within room (.obj ts), ?_, value?_within rfl ?_⟩
      · rw [chars, List.cons_append, List.cons_append, List.cons_append, hbody, value_obj, hts]
        rfl
      · rw [Tree.value?, hentries]
        split
        · rw [Option.map_some, Object.ofEntries_eq_self hsorted]
        · rfl

/-- The text of a value that is written without loss is that of a tree. The tree has the value if it
nests at most as deep as may be read, and no value otherwise. -/
theorem Proper.exists_tree {v : Json} (h : v.Proper) :
    ∃ t, Tree.parse? (chars v) = some t ∧
      t.value? = if v.depth ≤ maxDepth then some v else none := by
  obtain ⟨t, ht, hv⟩ := h.readsBack (2 * (chars v).length + 1) maxDepth [] (by omega)
    fun c hc => by cases hc
  rw [List.append_nil] at ht
  refine ⟨t, ?_, hv⟩
  rw [Tree.parse?, ht]
  rfl

theorem parse?_render {v : Json} (h : v.Proper) :
    parse? v.render = if v.depth ≤ maxDepth then some v else none := by
  obtain ⟨t, ht, hv⟩ := h.exists_tree
  rw [parse?, render, String.toList_ofList, ht]
  exact hv

/-- What is read as an object is the value of the tree, if that is an object. -/
theorem Tree.object?_of_value? {t : Tree} {o : Object} (h : t.value? = some (.obj o)) :
    t.object? = some o := by
  cases t with
  | obj es =>
    obtain ⟨es', hes, ho⟩ := Option.map_eq_some_iff.1 (by simpa only [Tree.value?] using h)
    rw [Tree.object?, hes, Option.map_some]
    exact congrArg some (Json.obj.inj ho)
  | _ => simp [Tree.value?] at h

theorem Tree.object?_eq_none {t : Tree} (h : t.value? = none) : t.object? = none := by
  cases t with
  | obj es => simpa [Tree.object?, Tree.value?] using h
  | _ => rfl

end Json

end Replication
