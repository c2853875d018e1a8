import TenantRag.Foundations.Dict
import TenantRag.Foundations.PyText
import TenantRag.Foundations.Replace
import Mathlib.Data.List.Dedup

/-!
# Redaction

`secret_values` and `redact` in `deployment/ragctl.py`: before a text is shown, each
configured secret in it is replaced, the longest first.

## The model

The configuration is a dictionary of texts. A Python set is iterated in an order of its
own, which is a parameter: it decides the order of secrets of one length.

## What is proved

* `mem_secretValues_iff` — the secrets are the configured values of some length, in any order.
* `redact_leaves_no_secret` — no secret is left, however they overlap.
-/

namespace TenantRag

/-- `config.get(name, "")`. -/
def configValue (config : Dict Text Text) (name : String) : Text := (config.get? (lit name)).getD []

/-- `proxy_bearer(config)`. -/
def proxyBearer (config : Dict Text Text) : Text :=
  strip (configValue config "MODAL_PROXY_TOKEN_ID") ++ lit "." ++ strip (configValue config "MODAL_PROXY_TOKEN_SECRET")

/-- The values that `secret_values(config)` collects. -/
def configuredSecrets (config : Dict Text Text) : List Text :=
  ["WEAVIATE_API_KEY", "MODAL_PROXY_TOKEN_ID", "MODAL_PROXY_TOKEN_SECRET", "SGLANG_QUERY_REWRITE_API_KEY",
    "QWEN_SGLANG_API_KEY"].map (configValue config) ++ [proxyBearer config]

/-- `secret_values(config)`, where a set of these elements is iterated in the order `iterate`. -/
def secretValues (iterate : List Text → List Text) (config : Dict Text Text) : List Text :=
  ((iterate (configuredSecrets config).dedup).filter fun value => 4 ≤ value.length).insertionSort
    fun a b => b.length ≤ a.length

/-- `redact(value, config)`, where the value is rendered as this text. -/
def redact (iterate : List Text → List Text) (rendered : Text) (config : Dict Text Text) : Text :=
  (secretValues iterate config).foldl (fun rendered secret => replaceAll secret (lit "[REDACTED]") rendered) rendered

/-- The secrets are the configured values that are long enough. -/
theorem mem_secretValues_iff {iterate : List Text → List Text} (hiterate : ∀ l, (iterate l).Perm l)
    {config : Dict Text Text} {s : Text} : s ∈ secretValues iterate config ↔ s ∈ configuredSecrets config ∧ 4 ≤ s.length := by
  rw [secretValues, (List.perm_insertionSort _ _).mem_iff, List.mem_filter, (hiterate _).mem_iff, List.mem_dedup,
    decide_eq_true_iff]

theorem length_of_mem_secretValues {iterate : List Text → List Text} {config : Dict Text Text} {s : Text}
    (h : s ∈ secretValues iterate config) : 4 ≤ s.length := by
  rw [secretValues, (List.perm_insertionSort _ _).mem_iff, List.mem_filter, decide_eq_true_iff] at h
  exact h.2

/-- A secret that a replacement cannot put together: it has none of the brackets and is no part of the
word between them. -/
structure Redactable (s : Text) : Prop where
  /-- No opening bracket. -/
  opening : 91 ∉ s
  /-- No closing bracket. -/
  closing : 93 ∉ s
  /-- No part of the word. -/
  word : ¬ s <:+: lit "REDACTED"

/-- After the replacement of one secret, it and the secrets that were gone before are gone. -/
theorem not_infix_replaceAll {s secret t : Text} (hsecret : secret ≠ []) (hne : s ≠ []) (hs : Redactable s)
    (hgone : s = secret ∨ ¬ s <:+: t) : ¬ s <:+: replaceAll secret (lit "[REDACTED]") t := by
  intro hin
  have hmark : lit "[REDACTED]" = 91 :: lit "REDACTED" ++ [93] := by decide
  rw [hmark] at hin
  rcases (replaced_replaceAll _ hsecret t).factor_before hne hs.opening hs.closing hin with hword | ⟨hbefore, hother⟩
  · exact hs.word hword
  · rcases hgone with heq | hgone
    · exact hother heq
    · exact hgone hbefore

/-- The secrets gone before the rest of the loop, and those it replaces, are gone after it. -/
theorem not_infix_foldl_replaceAll {secrets gone : List Text} {t : Text}
    (hsecrets : ∀ s ∈ secrets, s ≠ [] ∧ Redactable s) (hgone : ∀ s ∈ gone, s ≠ [] ∧ Redactable s ∧ ¬ s <:+: t) :
    ∀ s, s ∈ gone ∨ s ∈ secrets →
      ¬ s <:+: secrets.foldl (fun rendered secret => replaceAll secret (lit "[REDACTED]") rendered) t := by
  induction secrets generalizing gone t with
  | nil =>
    rintro s (hs | hs)
    · exact (hgone s hs).2.2
    · cases hs
  | cons secret secrets ih =>
    obtain ⟨⟨hsecret, hredactable⟩, hrest⟩ := List.forall_mem_cons.mp hsecrets
    have hnext : ∀ s ∈ secret :: gone, s ≠ [] ∧ Redactable s ∧ ¬ s <:+: replaceAll secret (lit "[REDACTED]") t := by
      intro s hs
      rcases List.mem_cons.mp hs with rfl | hs
      · exact ⟨hsecret, hredactable, not_infix_replaceAll hsecret hsecret hredactable (.inl rfl)⟩
      · obtain ⟨hne, hs, hbefore⟩ := hgone s hs
        exact ⟨hne, hs, not_infix_replaceAll hsecret hne hs (.inr hbefore)⟩
    rintro s (hs | hs)
    · exact ih hrest hnext s (.inl (List.mem_cons_of_mem _ hs))
    · rcases List.mem_cons.mp hs with rfl | hs
      · exact ih hrest hnext s (.inl List.mem_cons_self)
      · exact ih hrest hnext s (.inr hs)

/-- No secret is left in a redacted text. -/
theorem redact_leaves_no_secret (iterate : List Text → List Text) (config : Dict Text Text)
    (h : ∀ s ∈ secretValues iterate config, 91 ∉ s ∧ 93 ∉ s ∧ ¬ s <:+: lit "REDACTED") (rendered : Text) :
    ∀ s ∈ secretValues iterate config, ¬ s <:+: redact iterate rendered config := by
  intro s hs
  have hsecrets : ∀ s ∈ secretValues iterate config, s ≠ [] ∧ Redactable s := by
    intro s hs
    have hlength := length_of_mem_secretValues hs
    refine ⟨?_, ⟨(h s hs).1, (h s hs).2.1, (h s hs).2.2⟩⟩
    rintro rfl
    exact absurd hlength (by simp)
  exact not_infix_foldl_replaceAll hsecrets (fun s (hs : s ∈ []) => absurd hs List.not_mem_nil) s (.inr hs)

/-- Two tokens, whose join is a third secret. -/
def sampleSecrets : Dict Text Text :=
  (Dict.empty.set (lit "MODAL_PROXY_TOKEN_ID") (lit "wk-1")).set (lit "MODAL_PROXY_TOKEN_SECRET") (lit "ws-22")

theorem redact_leaves_no_secret_sample :
    lit "wk-1.ws-22" ∈ secretValues id sampleSecrets ∧
      ¬ lit "wk-1.ws-22" <:+: redact id (lit "Bearer wk-1.ws-22, wk-1wk-1.") sampleSecrets := by
  have hmem : lit "wk-1.ws-22" ∈ secretValues id sampleSecrets := by decide +kernel
  exact ⟨hmem, redact_leaves_no_secret id sampleSecrets (by decide +kernel) (lit "Bearer wk-1.ws-22, wk-1wk-1.") _ hmem⟩

end TenantRag
