import WadmOperator.Foundation.Pieces
import WadmOperator.Reconcile

/-!
# The text of nats.conf

Values are written escaped, so no quotation mark of the text comes from the spec: the
rendered text quotes the url and, when it is asked for, the path of the credentials.
-/

namespace WadmOperator
namespace Reconcile

theorem escaped_quote (lib : Libraries) (s : String) :
    '"' ∉ (escaped lib.escapeChar s).toList := by
  rw [escaped, String.toList_ofList, List.mem_flatMap]
  intro hall
  obtain ⟨c, -, hc⟩ := hall
  exact lib.escapeChar_quote c hc

theorem port_quote (port : UInt16) : '"' ∉ (toString port).toList := by
  intro hin
  have hdigits : '"' ∈ Nat.toDigits 10 port.toNat := by
    rw [← Nat.toList_repr]
    exact hin
  have hdigit := Nat.isDigit_of_mem_toDigits (by decide) (by decide) hdigits
  exact absurd hdigit (by decide)

def HasCredentialsLine (text : String) : Prop := credentialsLine.toList <:+: text.toList

theorem quoted_toList (s : String) : (quoted s).toList = '"' :: (s.toList ++ ['"']) := by
  rw [quoted, String.toList_append, String.toList_append]
  rfl

theorem credentialsLine_toList : credentialsLine.toList =
    "credentials: ".toList ++ '"' :: ("/nats/nats.creds".toList ++ ['"']) := by
  rw [credentialsLine, String.toList_append, quoted_toList]

def confFront (lib : Libraries) (spec : HostConfigSpec) : List Char :=
  confHead.toList ++ (escaped lib.escapeChar spec.leafNodeDomain).toList ++ confRemotes.toList

def confUrl (lib : Libraries) (spec : HostConfigSpec) : List Char :=
  (escaped lib.escapeChar spec.natsAddress).toList ++ ':' :: (toString spec.natsLeafnodePort).toList

theorem natsConf_toList (lib : Libraries) (spec : HostConfigSpec) (useCredentials : Bool) :
    (natsConf lib.escapeChar spec useCredentials).toList =
      confFront lib spec ++ '"' :: (confUrl lib spec ++ '"' :: ("\n".toList ++
        ((if useCredentials then confCredentials else "").toList ++ confTail.toList))) := by
  have hcolon : ":".toList = [':'] := rfl
  simp only [natsConf, confFront, confUrl, String.toList_append, quoted_toList, hcolon,
    List.append_assoc, List.cons_append, List.nil_append]

theorem confFront_quote (lib : Libraries) (spec : HostConfigSpec) : '"' ∉ confFront lib spec := by
  rw [confFront, List.mem_append, List.mem_append, not_or, not_or]
  exact ⟨⟨by decide, escaped_quote lib _⟩, by decide⟩

theorem confUrl_quote (lib : Libraries) (spec : HostConfigSpec) : '"' ∉ confUrl lib spec := by
  rw [confUrl, List.mem_append, List.mem_cons, not_or, not_or]
  exact ⟨escaped_quote lib _, by decide, port_quote _⟩

/-- The credentials line stands in the rendered text exactly when the flag is set. -/
theorem hasCredentialsLine_iff (lib : Libraries) (spec : HostConfigSpec) (useCredentials : Bool) :
    HasCredentialsLine (natsConf lib.escapeChar spec useCredentials) ↔ useCredentials = true := by
  rw [HasCredentialsLine, natsConf_toList]
  cases useCredentials with
  | true =>
    rw [if_pos rfl, iff_true_right rfl]
    have hin : credentialsLine.toList <:+: confCredentials.toList := by
      rw [confCredentials, String.toList_append, String.toList_append]
      exact List.infix_append _ _ _
    refine hin.trans ⟨confFront lib spec ++ '"' :: (confUrl lib spec ++ '"' :: "\n".toList),
      confTail.toList, ?_⟩
    simp only [List.append_assoc, List.cons_append]
  | false =>
    rw [if_neg Bool.false_ne_true, iff_false_right Bool.false_ne_true, credentialsLine_toList]
    intro hline
    have hsuffix := Pieces.suffix_of_quoted (by decide) (confFront_quote lib spec)
      (confUrl_quote lib spec)
      (by decide) hline
    have hurl : "url: ".toList <:+ confFront lib spec := by
      refine List.IsSuffix.trans ?_ (List.suffix_append _ _)
      decide
    have hboth := List.suffix_of_suffix_length_le hurl hsuffix (by decide)
    exact absurd hboth (by decide)

end Reconcile
end WadmOperator
