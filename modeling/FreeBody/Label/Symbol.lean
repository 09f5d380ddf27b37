/-!
# Symbols

The words that stand for one symbol behind a backslash in a label.
-/

namespace FreeBody.Label

/-- The words, each with its symbol. -/
def symbols : List (String × Char) := [
  ("alpha", 'α'), ("beta", 'β'), ("gamma", 'γ'), ("Gamma", 'Γ'), ("delta", 'δ'), ("Delta", 'Δ'),
  ("epsilon", 'ε'), ("eta", 'η'), ("theta", 'θ'), ("Theta", 'Θ'), ("lambda", 'λ'), ("mu", 'μ'),
  ("nu", 'ν'), ("pi", 'π'), ("rho", 'ρ'), ("sigma", 'σ'), ("Sigma", 'Σ'), ("tau", 'τ'),
  ("phi", 'φ'), ("Phi", 'Φ'), ("omega", 'ω'), ("Omega", 'Ω'), ("cdot", '·'), ("times", '×'),
  ("pm", '±'), ("infty", '∞'), ("degree", '°'), ("deg", '°'), ("circ", '°'), ("approx", '≈'),
  ("neq", '≠'), ("leq", '≤'), ("geq", '≥'), ("to", '→'), ("rightarrow", '→'), ("parallel", '∥'),
  ("perp", '⊥'), ("sqrt", '√'), ("partial", '∂'), ("nabla", '∇'), ("hbar", 'ℏ')]

/-- The symbol that a word stands for. -/
def symbol? (word : String) : Option Char := symbols.lookup word

end FreeBody.Label
