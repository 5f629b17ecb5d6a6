import ProxyMonitor.Proofs.Json.Spelled

/-! A document is read back from its tokens. -/
namespace ProxyMonitor.Json.Doc

mutual
/-- The tokens of a document, in order. -/
def tokens : Doc → List Token
  | .null => [.null]
  | .bool b => [.bool b]
  | .number n => [.number n]
  | .text s => [.text s]
  | .array items => .openBracket :: itemTokens items ++ [.closeBracket]
  | .object members => .openBrace :: memberTokens members ++ [.closeBrace]
def itemTokens : List Doc → List Token
  | [] => []
  | d :: rest => tokens d ++ laterItemTokens rest
def laterItemTokens : List Doc → List Token
  | [] => []
  | d :: rest => .comma :: tokens d ++ laterItemTokens rest
def memberTokens : List (List StringUnit × Doc) → List Token
  | [] => []
  | (key, d) :: rest => .text key :: .colon :: tokens d ++ laterMemberTokens rest
def laterMemberTokens : List (List StringUnit × Doc) → List Token
  | [] => []
  | (key, d) :: rest => .comma :: .text key :: .colon :: tokens d ++ laterMemberTokens rest
end

theorem foldlM_eq_of_step {p : Progress} {q : Progress} {t : Token} (h : p.step t = some q) (rest : List Token) :
    (t :: rest).foldlM Progress.step p = rest.foldlM Progress.step q := by
  rw [List.foldlM_cons, h]
  rfl

/-- No value begins with a closing bracket. -/
theorem foldlM_itemOrClose (d : Doc) (stack : List Frame) (rest : List Token) :
    (tokens d ++ rest).foldlM Progress.step ⟨.itemOrClose, stack⟩ =
      (tokens d ++ rest).foldlM Progress.step ⟨.value, stack⟩ := by
  cases d <;> rfl

/-- The tokens of a member up to its value. -/
theorem foldlM_key {p : Progress} {members : List (List StringUnit × Doc)} {stack : List Frame} (key : List StringUnit)
    (h : p.step (.text key) = some ⟨.colon, .member members key :: stack⟩) (rest : List Token) :
    (.text key :: .colon :: rest).foldlM Progress.step p =
      rest.foldlM Progress.step ⟨.value, .member members key :: stack⟩ := by
  rw [foldlM_eq_of_step h, foldlM_eq_of_step rfl]

mutual
/-- A value's tokens complete it where one is expected. -/
theorem foldlM_tokens (d : Doc) (stack : List Frame) (rest : List Token) :
    (tokens d ++ rest).foldlM Progress.step ⟨.value, stack⟩ = rest.foldlM Progress.step (.complete d stack) := by
  match d with
  | .null | .bool _ | .number _ | .text _ => rfl
  | .array [] =>
    exact (foldlM_eq_of_step rfl _).trans (foldlM_eq_of_step rfl rest)
  | .array (d :: items) =>
    simp only [tokens, itemTokens, List.cons_append, List.append_assoc, List.nil_append]
    rw [foldlM_eq_of_step rfl, foldlM_itemOrClose, foldlM_tokens d]
    exact foldlM_laterItems items [d] stack rest
  | .object [] =>
    exact (foldlM_eq_of_step rfl _).trans (foldlM_eq_of_step rfl rest)
  | .object ((key, d) :: members) =>
    simp only [tokens, memberTokens, List.cons_append, List.append_assoc, List.nil_append]
    rw [foldlM_eq_of_step rfl, foldlM_key key rfl, foldlM_tokens d]
    exact foldlM_laterMembers members [(key, d)] stack rest
theorem foldlM_laterItems (items done : List Doc) (stack : List Frame) (rest : List Token) :
    (laterItemTokens items ++ .closeBracket :: rest).foldlM Progress.step ⟨.itemEnd, .array done :: stack⟩ =
      rest.foldlM Progress.step (.complete (.array (done.reverse ++ items)) stack) := by
  match items with
  | [] =>
    rw [List.append_nil]
    exact foldlM_eq_of_step rfl rest
  | d :: items =>
    have later := foldlM_laterItems items (d :: done) stack rest
    rw [List.reverse_cons, List.append_assoc, List.singleton_append] at later
    rw [laterItemTokens, List.cons_append, List.cons_append, foldlM_eq_of_step rfl, List.append_assoc, foldlM_tokens d]
    exact later
theorem foldlM_laterMembers (members done : List (List StringUnit × Doc)) (stack : List Frame) (rest : List Token) :
    (laterMemberTokens members ++ .closeBrace :: rest).foldlM Progress.step ⟨.memberEnd, .object done :: stack⟩ =
      rest.foldlM Progress.step (.complete (.object (done.reverse ++ members)) stack) := by
  match members with
  | [] =>
    rw [List.append_nil]
    exact foldlM_eq_of_step rfl rest
  | (key, d) :: members =>
    have later := foldlM_laterMembers members ((key, d) :: done) stack rest
    rw [List.reverse_cons, List.append_assoc, List.singleton_append] at later
    rw [laterMemberTokens]
    simp only [List.cons_append, List.append_assoc]
    rw [foldlM_eq_of_step rfl, foldlM_key key rfl, foldlM_tokens d]
    exact later
end

theorem ofTokens?_tokens (d : Doc) : ofTokens? d.tokens = some d := by
  have all := foldlM_tokens d [] []
  rw [List.append_nil] at all
  rw [ofTokens?, all]
  rfl

end ProxyMonitor.Json.Doc
