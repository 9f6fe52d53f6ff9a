/-!
Powers of numbers and sums of lists of numbers. Other libraries bring instances of their own for both.
Here those of the core library come first, so that such a term is the same in every module, whatever else
the module imports.
-/

attribute [instance (high), default_instance high] instPowNat

attribute [instance (high)] Zero.ofOfNat0
