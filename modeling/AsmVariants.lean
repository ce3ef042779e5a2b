import AsmVariants.Files.Tree
import AsmVariants.Main
import AsmVariants.Proofs.Except
import AsmVariants.Proofs.Candidates
import AsmVariants.Proofs.Candidates.Grammar
import AsmVariants.Proofs.Expansion.Replay
import AsmVariants.Proofs.Expansion.LineShape
import AsmVariants.Proofs.Expansion.Annotation
import AsmVariants.Proofs.Expansion.Limit
import AsmVariants.Proofs.Placeholder.Substitution
import AsmVariants.Proofs.Placeholder.Offsets
import AsmVariants.Proofs.Placeholder.Replacement
import AsmVariants.Proofs.Template
import AsmVariants.Proofs.Expansion.Clean
import AsmVariants.Proofs.Expansion.Product
import AsmVariants.Proofs.Expansion.Numbering
import AsmVariants.Proofs.Expansion.Simultaneous
import AsmVariants.Proofs.Expansion.Walk
import AsmVariants.Proofs.Expansion.Reorder
import AsmVariants.Proofs.Expansion.DepthFirst
import AsmVariants.Proofs.Expansion.Lexicographic
import AsmVariants.Proofs.Expansion.Simulation
import AsmVariants.Proofs.Expansion.Noninterference
import AsmVariants.Proofs.Text.LineEnd
import AsmVariants.Proofs.Text.Lines
import AsmVariants.Proofs.Expansion.LineEnd
import AsmVariants.Proofs.Expansion.Settled
import AsmVariants.Proofs.Files.Path
import AsmVariants.Proofs.Files.Tree
import AsmVariants.Proofs.Output
import AsmVariants.Proofs.Run
import AsmVariants.Proofs.CommandLine.Settings
import AsmVariants.Proofs.Benchmark.Totals
import AsmVariants.Proofs.Files.OutputName
import AsmVariants.Proofs.Benchmark.Measurement
import AsmVariants.Proofs.Placeholder.Order
import AsmVariants.Proofs.Benchmark.Faults
import AsmVariants.Proofs.Benchmark.Layout
import AsmVariants.Proofs.CommandLine.Acceptance
import AsmVariants.Proofs.Config.Storage
import AsmVariants.Proofs.CommandLine.Listing
