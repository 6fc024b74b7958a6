import Clash.Lib.CString

/-!
# The libyaml scanner

The tokens that `yaml_parser_scan` yields, and the token sequences of block-style YAML.

`Scanner` is the part of a `yaml_parser_t` that a program reading tokens depends on: the
tokens still to come, and what happens after them. `Block` is the grammar of block-style
values, each with its token sequence. A block sequence below a mapping key has two token
forms: the indented one is bracketed by `BLOCK_SEQUENCE_START` and `BLOCK_END`, the
indentless one is a bare row of entries.
-/

open CProg

namespace Yaml

/-- `yaml_token_t`: its type, and the string its data holds. -/
inductive Token where
  | noToken
  | streamStart
  | streamEnd
  | versionDirective
  | tagDirective (handle : CString)
  | documentStart
  | documentEnd
  | blockSequenceStart
  | blockMappingStart
  | blockEnd
  | flowSequenceStart
  | flowSequenceEnd
  | flowMappingStart
  | flowMappingEnd
  | blockEntry
  | flowEntry
  | key
  | value
  | alias (name : CString)
  | anchor (name : CString)
  | tag (handle : CString)
  | scalar (value : CString)
  deriving DecidableEq, Repr

namespace Token

/-- `token.data.scalar.value`, read whatever the type of the token: the string of the data
union, or `NULL` for a token without data. -/
def val : Token → Option CString
  | .scalar s | .alias s | .anchor s | .tag s | .tagDirective s => some s
  | _ => none

/-- The tokens that open, close or divide block collections. -/
def isBlock : Token → Bool
  | .blockSequenceStart | .blockMappingStart | .blockEnd | .blockEntry => true
  | _ => false

/-- The tokens that open or divide block sequences. -/
def isSequence : Token → Bool
  | .blockSequenceStart | .blockEntry => true
  | _ => false

theorem isSequence_of_isBlock {t : Token} (h : t.isBlock = false) : t.isSequence = false := by
  cases t <;> first | rfl | cases h

end Token

/-- A `yaml_parser_t` about to scan: the tokens to come, and whether the scanner then reports
an error (`broken`) or has seen the end of the stream. -/
structure Scanner where
  tokens : List Token
  broken : Bool

/-- `assert(1==yaml_parser_scan(&parser,&token))`, with the token. After the end of the stream
the scanner succeeds for ever with `YAML_NO_TOKEN`. -/
def scan : Prog Scanner Token := do
  let parser ← get
  match parser.tokens with
  | t :: ts =>
    set { parser with tokens := ts }
    pure t
  | [] =>
    assert (parser.broken = false)
    pure .noToken

@[simp] theorem run_scan_cons (t : Token) (ts : List Token) (b : Bool) :
    scan.run ⟨t :: ts, b⟩ = .ok t ⟨ts, b⟩ := rfl

/-- A block-style value as the scanner reports it. -/
inductive Block where
  /-- A value without block structure: a scalar, an alias, a flow collection or nothing at
  all, with its anchor and tag. -/
  | leaf (ts : List Token) (flat : ∀ t ∈ ts, t.isBlock = false)
  /-- A block mapping whose keys are scalars. -/
  | mapping (ps : List (CString × Block))
  /-- An indented block sequence. -/
  | sequence (vs : List Block)
  /-- A block sequence that is not indented more than the mapping it belongs to. -/
  | indentless (vs : List Block)

namespace Block

/-- A value may be left out. -/
theorem flat_nil : ∀ t ∈ ([] : List Token), t.isBlock = false := List.forall_mem_nil _

/-- A scalar without anchor and tag. -/
def plain (s : CString) : Block := .leaf [.scalar s] fun _ ht => List.mem_singleton.mp ht ▸ rfl

mutual

/-- The tokens of a value. -/
def tokens : Block → List Token
  | .leaf ts _ => ts
  | .mapping ps => .blockMappingStart :: (pairTokens ps ++ [.blockEnd])
  | .sequence vs => .blockSequenceStart :: (itemTokens vs ++ [.blockEnd])
  | .indentless vs => itemTokens vs

/-- The tokens of the pairs of a block mapping. -/
def pairTokens : List (CString × Block) → List Token
  | [] => []
  | (k, v) :: ps => .key :: .scalar k :: .value :: (tokens v ++ pairTokens ps)

/-- The tokens of the entries of a block sequence. -/
def itemTokens : List Block → List Token
  | [] => []
  | v :: vs => .blockEntry :: (tokens v ++ itemTokens vs)

end

@[simp] theorem tokens_leaf (ts : List Token) (flat : ∀ t ∈ ts, t.isBlock = false) :
    (Block.leaf ts flat).tokens = ts := by
  rw [tokens]

@[simp] theorem tokens_plain (s : CString) : (plain s).tokens = [.scalar s] :=
  tokens_leaf _ _

@[simp] theorem tokens_mapping (ps : List (CString × Block)) :
    (Block.mapping ps).tokens = .blockMappingStart :: (pairTokens ps ++ [.blockEnd]) := by
  rw [tokens]

@[simp] theorem tokens_sequence (vs : List Block) :
    (Block.sequence vs).tokens = .blockSequenceStart :: (itemTokens vs ++ [.blockEnd]) := by
  rw [tokens]

@[simp] theorem tokens_indentless (vs : List Block) :
    (Block.indentless vs).tokens = itemTokens vs := by
  rw [tokens]

@[simp] theorem pairTokens_nil : pairTokens [] = [] := by
  rw [pairTokens]

@[simp] theorem pairTokens_cons (k : CString) (v : Block) (ps : List (CString × Block)) :
    pairTokens ((k, v) :: ps) =
      .key :: .scalar k :: .value :: (v.tokens ++ pairTokens ps) := by
  rw [pairTokens]

@[simp] theorem itemTokens_nil : itemTokens [] = [] := by
  rw [itemTokens]

@[simp] theorem itemTokens_cons (v : Block) (vs : List Block) :
    itemTokens (v :: vs) = .blockEntry :: (v.tokens ++ itemTokens vs) := by
  rw [itemTokens]

mutual

/-- No block sequence occurs anywhere in the value. -/
def NoSequence : Block → Prop
  | .leaf _ _ => True
  | .mapping ps => PairsNoSequence ps
  | .sequence _ => False
  | .indentless _ => False

/-- No block sequence occurs in the values of the pairs. -/
def PairsNoSequence : List (CString × Block) → Prop
  | [] => True
  | (_, v) :: ps => NoSequence v ∧ PairsNoSequence ps

end

@[simp] theorem noSequence_leaf (ts : List Token) (flat : ∀ t ∈ ts, t.isBlock = false) :
    (Block.leaf ts flat).NoSequence := by
  rw [NoSequence]
  trivial

@[simp] theorem noSequence_plain (s : CString) : (plain s).NoSequence :=
  noSequence_leaf _ _

@[simp] theorem noSequence_mapping (ps : List (CString × Block)) :
    (Block.mapping ps).NoSequence ↔ PairsNoSequence ps := by
  rw [NoSequence]

@[simp] theorem pairsNoSequence_nil : PairsNoSequence [] := by
  rw [PairsNoSequence]
  trivial

@[simp] theorem pairsNoSequence_cons (k : CString) (v : Block) (ps : List (CString × Block)) :
    PairsNoSequence ((k, v) :: ps) ↔ v.NoSequence ∧ PairsNoSequence ps := by
  rw [PairsNoSequence]

mutual

/-- A value without block sequences has none of their tokens. -/
theorem isSequence_of_mem_tokens :
    ∀ v : Block, v.NoSequence → ∀ t ∈ v.tokens, t.isSequence = false
  | .leaf ts flat, _ => by
    rw [tokens_leaf]
    exact fun t ht => Token.isSequence_of_isBlock (flat t ht)
  | .mapping ps, hps => by
    rw [noSequence_mapping] at hps
    have ih := isSequence_of_mem_pairTokens ps hps
    rw [tokens_mapping, List.forall_mem_cons, List.forall_mem_append, List.forall_mem_singleton]
    exact ⟨rfl, ih, rfl⟩
  | .sequence vs, hvs => by
    rw [NoSequence] at hvs
    exact hvs.elim
  | .indentless vs, hvs => by
    rw [NoSequence] at hvs
    exact hvs.elim

theorem isSequence_of_mem_pairTokens :
    ∀ ps : List (CString × Block), PairsNoSequence ps → ∀ t ∈ pairTokens ps, t.isSequence = false
  | [], _ => by
    rw [pairTokens_nil]
    exact List.forall_mem_nil _
  | (k, v) :: ps, hps => by
    rw [pairsNoSequence_cons] at hps
    have hv := isSequence_of_mem_tokens v hps.1
    have ih := isSequence_of_mem_pairTokens ps hps.2
    simp only [pairTokens_cons, List.forall_mem_cons, List.forall_mem_append]
    exact ⟨rfl, rfl, rfl, hv, ih⟩

end

end Block

end Yaml
