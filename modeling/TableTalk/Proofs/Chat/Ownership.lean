import TableTalk.Proofs.Chat.Turns
import TableTalk.Proofs.Table.Rows
import TableTalk.Source.Memory

/-!
# Ownership

What a user is told does not depend on the rows of others. A data set that belongs to someone else
is refused from its owner alone (`rows_foreign`), and without the model (`askAs_foreign`). So two
memories that are alike for a user give every turn of that user the same rows or the same refusal
(`rows_alike`), and from there a turn is one computation (`askAs_alike`). With the same replies to
come, all turns then get the same responses, and the model the same requests (`session_alike`).
-/

namespace TableTalk

namespace Memory

/-- The memories have the same data sets with the same owners, and differ at most in rows that
belong to others than the user. -/
structure AlikeFor (user : String) (a b : Memory) : Prop where
  owners : ∀ id, (a.find id).map Dataset.owner = (b.find id).map Dataset.owner
  rows : ∀ id d e, a.find id = .ok d → b.find id = .ok e →
    (∀ owner, d.owner = some owner → owner = user) → d.rows = e.rows

theorem find_insert (mem : Memory) (id id' : String) (d : Dataset) :
    (mem.insert id d).find id' = if id' = id then .ok d else mem.find id' := by
  rw [find, insert, lookup_setMember]
  split_ifs <;> rfl

/-- Other rows for a data set of someone else. -/
theorem alikeFor_insert {user owner : String} (h : owner ≠ user) (mem : Memory) (id : String)
    (rows rows' : List Row) :
    (mem.insert id ⟨some owner, rows⟩).AlikeFor user (mem.insert id ⟨some owner, rows'⟩) where
  owners id' := by
    rw [find_insert, find_insert]
    split_ifs <;> rfl
  rows id' d e hd he howner := by
    rw [find_insert] at hd he
    split_ifs at hd he
    · cases hd
      exact absurd (howner owner rfl) h
    · rw [hd] at he
      cases he
      rfl

end Memory

open Memory Pipeline

section Alike

variable {m : Type → Type} [Monad m] [LawfulMonad m] {user : String} {a b : Memory}

theorem rows_foreign {id owner : String} {d : Dataset} (hd : a.find id = .ok d)
    (howner : d.owner = some owner) (h : owner ≠ user) (question : String) :
    (Turn.askAs user question id).rows (m := m) a.source =
      pure (.error (.refused unauthorized)) := by
  simp [Turn.rows, Source.owner, Memory.source, hd, howner, h]

/-- The model hears nothing of a question about what belongs to someone else. -/
theorem askAs_foreign {id owner : String} {d : Dataset} (hd : a.find id = .ok d)
    (howner : d.owner = some owner) (h : owner ≠ user) (model : Model m) (settings : Settings)
    (question : String) : (⟨a.source, model, settings⟩ : Pipeline m).askAs user question id =
      pure (.refused unauthorized) := by
  show turn _ (.askAs user question id) = _
  rw [turn_eq]
  dsimp only
  rw [rows_foreign hd howner h, pure_bind]

theorem rows_alike (h : a.AlikeFor user b) (question id : String) :
    (Turn.askAs user question id).rows (m := m) a.source =
      (Turn.askAs user question id).rows b.source := by
  have howners := h.owners id
  rcases ha : a.find id with e | ⟨owner, known⟩ <;>
    rcases hb : b.find id with e' | ⟨owner', known'⟩ <;> rw [ha, hb] at howners <;> cases howners
  · simp [Turn.rows, Source.owner, Memory.source, ha, hb]
  · by_cases hforeign : ∃ o, owner = some o ∧ o ≠ user
    · obtain ⟨o, ho, hne⟩ := hforeign
      rw [rows_foreign ha ho hne, rows_foreign hb ho hne]
    · cases h.rows id _ _ ha hb fun o ho =>
        Decidable.byContradiction fun hne => hforeign ⟨o, ho, hne⟩
      simp [Turn.rows, Turn.found, Source.owner, Source.rows, Memory.source, ha, hb]

theorem askAs_alike (h : a.AlikeFor user b) (model : Model m) (settings : Settings)
    (question id : String) : (⟨a.source, model, settings⟩ : Pipeline m).askAs user question id =
      (⟨b.source, model, settings⟩ : Pipeline m).askAs user question id := by
  show turn _ (.askAs user question id) = turn _ (.askAs user question id)
  rw [turn_eq, turn_eq]
  dsimp only
  rw [rows_alike h]
  rfl

end Alike

/-- The responses to some turns of a user on a memory, and the dialogue behind them. -/
def Memory.session (mem : Memory) (user : String) (settings : Settings)
    (replies : List (Except ModelError String)) (turns : List (String × String)) :
    List Response × Dialogue :=
  let p : Pipeline (StateM Dialogue) := ⟨mem.source, Dialogue.model, settings⟩
  (turns.mapM fun (question, id) => p.askAs user question id).run ⟨replies, []⟩

theorem session_alike {user : String} {a b : Memory} (h : a.AlikeFor user b) (settings : Settings)
    (replies : List (Except ModelError String)) (turns : List (String × String)) :
    (a.session user settings replies turns).1 = (b.session user settings replies turns).1 ∧
      (a.session user settings replies turns).2.requests =
        (b.session user settings replies turns).2.requests := by
  have : a.session user settings replies turns = b.session user settings replies turns := by
    simp only [session, askAs_alike h]
  rw [this]
  exact ⟨rfl, rfl⟩

/-- What Bob has is not seen in what Alice is told, and she may ask for it. -/
theorem session_alike_asked : ∃ (a b : Memory) (turns : List (String × String)),
    a.find "theirs" = .ok ⟨some "bob", []⟩ ∧ b.find "theirs" = .ok ⟨some "bob", [Row.empty]⟩ ∧
    turns = [("How many?", "theirs"), ("How many?", "mine")] ∧ a.AlikeFor "alice" b ∧
    (a.session "alice" {} [.ok "no"] turns).1 = (b.session "alice" {} [.ok "no"] turns).1 ∧
      (a.session "alice" {} [.ok "no"] turns).2.requests =
        (b.session "alice" {} [.ok "no"] turns).2.requests :=
  have h := alikeFor_insert (by decide) (Memory.empty.insert "mine" ⟨some "alice", []⟩) "theirs"
    [] [Row.empty]
  ⟨_, _, _, rfl, rfl, rfl, h, session_alike h {} _ _⟩

end TableTalk
