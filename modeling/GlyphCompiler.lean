/-
# A compiler for the Glyph language

A source text is parsed by a grammar and a table that is derived from it,
analyzed, optimized and written as JavaScript. Every step is a function on its
own, and the command line joins them.
-/

import GlyphCompiler.Analysis.Annotation
import GlyphCompiler.JavaScript.Series
import GlyphCompiler.Main
import GlyphCompiler.Proofs.Analysis.Diagnostics
import GlyphCompiler.Proofs.Analysis.Order
import GlyphCompiler.Proofs.Analysis.Reached
import GlyphCompiler.Proofs.Analysis.References
import GlyphCompiler.Proofs.Analysis.Session
import GlyphCompiler.Proofs.CommandLine.Delivery
import GlyphCompiler.Proofs.JavaScript.Escaping
import GlyphCompiler.Proofs.JavaScript.Readability
import GlyphCompiler.Proofs.JavaScript.Stability
import GlyphCompiler.Proofs.Optimizer.Counters
import GlyphCompiler.Proofs.Optimizer.Literals
import GlyphCompiler.Proofs.Optimizer.Reckoning
import GlyphCompiler.Proofs.Optimizer.Returns
import GlyphCompiler.Proofs.Optimizer.Size
import GlyphCompiler.Proofs.Optimizer.Success
import GlyphCompiler.Proofs.Parser.Exscribe
import GlyphCompiler.Proofs.Parser.Layout
import GlyphCompiler.Proofs.Parser.Termination
import GlyphCompiler.Proofs.Scope.Lexical
import GlyphCompiler.Proofs.Stage
import GlyphCompiler.Proofs.Ty.ConversionOrder
import GlyphCompiler.Proofs.Ty.Inhabitants
import GlyphCompiler.Proofs.Ty.Knowledge
import GlyphCompiler.Proofs.Ty.RoundTrip
