import TableTalk.Intent.Reading
import TableTalk.Proofs.Decimal.Spelling
import TableTalk.Proofs.Outcome

/-!
# The object in a reply

A reply that holds one object between other words is read as the object alone
(`Intent.ofReply_braced`). What is taken off the ends of a reply, blanks and code fences, holds no
brace. So it is taken off the words in front of the object and off those behind it
(`Intent.unfenced_append`), and the first opening brace and the last closing one stay those of the
object.
-/

namespace TableTalk

open Decimal

namespace Text

variable {p cs rest : List Char} {c : Char}

theorem behind?_append_of_notMem (hc : c ∉ p) (cs : List Char) (hrest : rest.head? = some c) :
    behind? p (cs ++ rest) = (behind? p cs).map (· ++ rest) := by
  obtain ⟨rest, rfl⟩ := List.head?_eq_some_iff.1 hrest
  induction p generalizing cs with
  | nil => rfl
  | cons a p ih =>
    rw [List.mem_cons, not_or] at hc
    cases cs with
    | nil => exact if_neg (by simpa using Ne.symm hc.1)
    | cons d cs =>
      rw [List.cons_append, behind?, behind?]
      split_ifs
      · exact ih hc.2 cs
      · rfl

theorem subset_of_behind? (h : behind? p cs = some rest) : rest ⊆ cs :=
  eq_append_of_behind? h ▸ List.subset_append_right p rest

/-- Nothing is dropped behind a character that stays. -/
theorem dropWhile_append_of_stop {q : Char → Bool} (hc : q c = false) (cs : List Char)
    (hrest : rest.head? = some c) : (cs ++ rest).dropWhile q = cs.dropWhile q ++ rest := by
  obtain ⟨rest, rfl⟩ := List.head?_eq_some_iff.1 hrest
  rw [List.dropWhile_append, List.dropWhile_cons_of_neg (by simp [hc])]
  split_ifs with h
  · rw [List.isEmpty_iff.1 h]
    rfl
  · rfl

end Text

namespace Intent

/-- No fence goes beyond a character that fences do not have. -/
theorem dropFences_append {f rest : List Char} {c : Char} (hc : c ∉ f)
    (hrest : rest.head? = some c) : ∀ (fuel : Nat) (cs : List Char),
      dropFences fuel f (cs ++ rest) = dropFences fuel f cs ++ rest
  | 0, _ => rfl
  | fuel + 1, cs => by
    rw [dropFences, dropFences, Text.behind?_append_of_notMem hc cs hrest]
    rcases Text.behind? f cs with - | behind
    · rfl
    · exact dropFences_append hc hrest fuel behind

theorem dropFences_subset (f : List Char) : ∀ (fuel : Nat) (cs : List Char),
    dropFences fuel f cs ⊆ cs
  | 0, _ => List.Subset.refl _
  | fuel + 1, cs => by
    rw [dropFences]
    rcases h : Text.behind? f cs with - | behind
    · exact List.Subset.refl _
    · exact List.Subset.trans (dropFences_subset f fuel behind) (Text.subset_of_behind? h)

section Braces

variable {core : List Char} (hhead : core.head? = some '{') (hlast : core.getLast? = some '}')

include hhead in
theorem head?_object (back : List Char) : (core ++ back).head? = some '{' := by
  rw [List.head?_append, hhead]
  rfl

include hlast in
theorem head?_reverse_object (front : List Char) :
    (core.reverse ++ front.reverse).head? = some '}' := by
  rw [List.head?_append, List.head?_reverse, hlast]
  rfl

include hhead hlast

/-- What a reply loses at its ends, it loses in front of its object and behind it. -/
theorem unfenced_append (front back : List Char) :
    ∃ front' back', unfenced (front ++ (core ++ back)) = front' ++ (core ++ back') ∧
      front' ⊆ front ∧ back' ⊆ back := by
  have hreverse : ∀ xs ys : List Char, (xs ++ (core ++ ys)).reverse =
      ys.reverse ++ (core.reverse ++ xs.reverse) := fun xs ys => by
    simp only [List.reverse_append, List.append_assoc]
  have htrim : ∀ xs ys : List Char, Text.trimChars (xs ++ (core ++ ys)) =
      Text.trimStart xs ++ (core ++ Text.trimEnd ys) := fun xs ys => by
    rw [Text.trimChars, Text.trimStart, Text.dropWhile_append_of_stop (by decide) xs
      (head?_object hhead ys), Text.trimEnd, Text.dropWhileEnd, hreverse,
      Text.dropWhile_append_of_stop (by decide) _ (head?_reverse_object hlast _)]
    simp only [List.reverse_append, List.reverse_reverse, List.append_assoc]
    rfl
  have hstart : ∀ (f : List Char) (n : Nat) (xs ys : List Char), '{' ∉ f →
      dropFences n f (xs ++ (core ++ ys)) = dropFences n f xs ++ (core ++ ys) :=
    fun f n xs ys hf => dropFences_append hf (head?_object hhead ys) n xs
  have hend : ∀ (n : Nat) (xs ys : List Char),
      (dropFences n fence (xs ++ (core ++ ys)).reverse).reverse =
        xs ++ (core ++ (dropFences n fence ys.reverse).reverse) := fun n xs ys => by
    rw [hreverse, dropFences_append (by decide) (head?_reverse_object hlast xs)]
    simp only [List.reverse_append, List.reverse_reverse, List.append_assoc]
  have hsubset : ∀ (n : Nat) (ys : List Char), (dropFences n fence ys.reverse).reverse ⊆ ys :=
    fun n ys => fun c hc => List.mem_reverse.1 (dropFences_subset fence n _ (List.mem_reverse.1 hc))
  have htrimEnd : ∀ ys : List Char, Text.trimEnd ys ⊆ ys := fun ys c hc =>
    List.mem_reverse.1 (List.dropWhile_subset _ (List.mem_reverse.1 hc))
  rw [unfenced, htrim]
  simp only [hstart (fence ++ "json".toList) _ _ _ (by decide), hstart fence _ _ _ (by decide), hend,
    htrim]
  refine ⟨_, _, rfl, ?_, ?_⟩
  · calc Text.trimStart _
        ⊆ _ := List.dropWhile_subset _
      _ ⊆ _ := dropFences_subset _ _ _
      _ ⊆ _ := dropFences_subset _ _ _
      _ ⊆ front := List.dropWhile_subset _
  · calc Text.trimEnd _
        ⊆ _ := htrimEnd _
      _ ⊆ _ := hsubset _ _
      _ ⊆ back := htrimEnd _

/-- From the first opening brace to the last closing one. -/
theorem braced_append {front back : List Char} (hfront : '{' ∉ front) (hback : '}' ∉ back) :
    braced (front ++ (core ++ back)) = core := by
  have hbehind : (front ++ (core ++ back)).dropWhile (· != '{') = core ++ back := by
    refine dropWhile_append_of_head (fun c hc => ?_) ⟨'{', head?_object hhead back, rfl⟩
    rw [bne_iff_ne]
    rintro rfl
    exact hfront hc
  have hspan : Text.dropWhileEnd (· != '}') (core ++ back) = core := by
    rw [Text.dropWhileEnd, List.reverse_append, dropWhile_append_of_head, List.reverse_reverse]
    · intro c hc
      rw [bne_iff_ne]
      rintro rfl
      exact hback (List.mem_reverse.1 hc)
    · exact ⟨'}', by rw [List.head?_reverse, hlast]; rfl, rfl⟩
  obtain ⟨tail, rfl⟩ := List.head?_eq_some_iff.1 hhead
  simp only [braced, hbehind, hspan]
  rfl

end Braces

/-- An object between other words is read as it is read alone. -/
theorem ofReply_braced {p j s : String} (hp : '{' ∉ p.toList) (hs : '}' ∉ s.toList)
    (hhead : j.toList.head? = some '{') (hlast : j.toList.getLast? = some '}') :
    ofReply (p ++ j ++ s) = read j := by
  obtain ⟨front, back, hunfenced, hfront, hback⟩ :=
    unfenced_append hhead hlast p.toList s.toList
  have hbraced := braced_append hhead hlast (fun h => hp (hfront h)) (fun h => hs (hback h))
  rw [ofReply, ofReplyChars, String.toList_append, String.toList_append, List.append_assoc,
    hunfenced, hbraced]
  rfl

/-- Two fences in front, one and a brace behind, and more of them in a text of the object. -/
theorem ofReply_braced_fenced : ∃ j : String,
    j.toList.head? = some '{' ∧ j.toList.getLast? = some '}' ∧
    read j = .ok (.unknown 0 "``` \x7d\x7b ```") ∧
    ofReply ("As follows:\n```json```\n" ++ j ++ "\n``` \x7b") =
      .ok (.unknown 0 "``` \x7d\x7b ```") := by
  have hread : read ("\x7b\"type\": \"UNKNOWN\", " ++ "\"reasoning\": " ++
      "\"``` \x7d\x7b ```\"\x7d") = .ok (.unknown 0 "``` \x7d\x7b ```") := by
    simp only [Intent.read, String.toList_append]
    exact eq_ok_of_toOption (by decide +kernel)
  exact ⟨_, by decide, by decide, hread,
    (ofReply_braced (by decide) (by decide) (by decide) (by decide)).trans hread⟩

end Intent

end TableTalk
