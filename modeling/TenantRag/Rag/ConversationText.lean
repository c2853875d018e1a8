import TenantRag.Foundations.PyError
import TenantRag.Foundations.PyText
import TenantRag.Foundations.Separator

/-!
# The text of a conversation

A conversation is stored as one text: `embed_conversation` in
`backend/rag/embedder.py` writes the question and the answer behind their
headings, and `_structured_pair` in `backend/rag/query_rewriter.py` reads them
back for the query rewriter.

## What is proved

* `structuredPair_conversationText_iff` — the pair read back is the question and the
  answer exactly where the answer's heading does not begin within the question.
* `heading_in_question` — a question that holds the heading is cut there.
-/

namespace TenantRag

/-- `_QUESTION_PREFIX`. -/
def questionPrefix : Text := lit "Question:\n"

/-- `_ANSWER_SEPARATOR`. -/
def answerSeparator : Text := lit "\n\nAnswer:\n"

/-- `ConversationPair`. -/
structure ConversationPair where
  /-- `object_id`. -/
  objectId : Text
  /-- `question`. -/
  question : Text
  /-- `answer`. -/
  answer : Text
  /-- `__post_init__` refuses an empty id. -/
  objectId_notBlank : isBlank objectId = false
  /-- So it does an empty question. -/
  question_notBlank : isBlank question = false
  /-- So it does an empty answer. -/
  answer_notBlank : isBlank answer = false

/-- `ConversationPair(object_id=..., question=..., answer=...)`. -/
def ConversationPair.new (objectId question answer : Text) : Except PyError ConversationPair :=
  if hi : isBlank objectId = false then
    if hq : isBlank question = false then
      if ha : isBlank answer = false then .ok ⟨objectId, question, answer, hi, hq, ha⟩
      else .error (valueError "answer must not be empty")
    else .error (valueError "question must not be empty")
  else .error (valueError "object_id must not be empty")

/-- The text that `embed_conversation` stores. -/
def conversationText (question answer : Text) : Text :=
  questionPrefix ++ (question ++ (answerSeparator ++ answer))

/-- `_structured_pair(raw_text, object_id=object_id)`. -/
def structuredPair (rawText objectId : Text) : Except PyError (Option ConversationPair) :=
  if !questionPrefix.isPrefixOf rawText then .ok none
  else
    match splitFirst answerSeparator (rawText.drop questionPrefix.length) with
    | none => .ok none
    | some (question, answer) =>
        if isBlank question || isBlank answer then .ok none
        else (ConversationPair.new objectId question answer).map some

theorem answerSeparator_ne_nil : answerSeparator ≠ [] := by decide

theorem structuredPair_conversationText {question answer objectId : Text} :
    structuredPair (conversationText question answer) objectId =
      match splitFirst answerSeparator (question ++ (answerSeparator ++ answer)) with
      | none => .ok none
      | some (q, a) =>
          if isBlank q || isBlank a then .ok none else (ConversationPair.new objectId q a).map some := by
  have hinitial : questionPrefix.isPrefixOf (conversationText question answer) = true :=
    List.isPrefixOf_iff_prefix.mpr (List.prefix_append _ _)
  rw [structuredPair, hinitial, conversationText, List.drop_left]
  rfl

/-- **The stored pair**: of a question and an answer that are not blank, the pair read back has
exactly these, if and only if the answer's heading occurs neither in the question nor across its
end. -/
theorem structuredPair_conversationText_iff {question answer objectId : Text} (hq : isBlank question = false)
    (ha : isBlank answer = false) (hi : isBlank objectId = false) :
    structuredPair (conversationText question answer) objectId = .ok (some ⟨objectId, question, answer, hi, hq, ha⟩) ↔
      ¬ answerSeparator <:+: question ++ answerSeparator.dropLast := by
  rw [structuredPair_conversationText, ← splitFirst_joined_iff answerSeparator_ne_nil question answer]
  constructor
  · intro h
    cases hs : splitFirst answerSeparator (question ++ (answerSeparator ++ answer)) with
    | none => rw [hs] at h; cases h
    | some p =>
      obtain ⟨q, a⟩ := p
      rw [hs] at h
      dsimp only at h
      split_ifs at h with hblank
      · cases h
      · rw [ConversationPair.new] at h
        split_ifs at h
        · cases h
          rfl
        all_goals cases h
  · intro h
    rw [h]
    simp [hq, ha, hi, ConversationPair.new, Except.map]

/-- A plain question and its answer come back. -/
theorem structuredPair_conversationText_iff_plain :
    structuredPair (conversationText (lit "Who is Rex?") (lit "My dog.")) (lit "c1") =
      .ok (some ⟨lit "c1", lit "Who is Rex?", lit "My dog.", by decide, by decide, by decide⟩) :=
  (structuredPair_conversationText_iff (by decide) (by decide) (by decide)).mpr (by decide)

/-- The question `a\n\nAnswer:\nb` with the answer `c` is read back as the question `a` with
another answer. -/
theorem heading_in_question :
    ¬ ∀ (question answer objectId : Text) (hq : isBlank question = false) (ha : isBlank answer = false)
      (hi : isBlank objectId = false), structuredPair (conversationText question answer) objectId =
        .ok (some ⟨objectId, question, answer, hi, hq, ha⟩) := by
  intro h
  have hpair := h (lit "a\n\nAnswer:\nb") (lit "c") (lit "i") (by decide) (by decide) (by decide)
  have hread : (structuredPair (conversationText (lit "a\n\nAnswer:\nb") (lit "c")) (lit "i")).toOption.map
      (fun p => p.map ConversationPair.question) = some (some (lit "a")) := by decide
  rw [hpair] at hread
  exact absurd hread (by decide)

end TenantRag
