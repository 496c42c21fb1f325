import DocLayout.Catalogue
import DocLayout.Script.Answer
import DocLayout.Proofs.Layout.Soundness
import DocLayout.Proofs.Layout.Agreement
import DocLayout.Proofs.Layout.Content
import DocLayout.Proofs.Layout.Denotation
import DocLayout.Proofs.Layout.Columns
import DocLayout.Proofs.Layout.LineBreak
import DocLayout.Proofs.Layout.Equations
import DocLayout.Proofs.Layout.Regrouping
import DocLayout.Proofs.Layout.Congruence
import DocLayout.Proofs.Layout.Lockstep
import DocLayout.Proofs.Layout.Safety
import DocLayout.Proofs.Layout.Equality
import DocLayout.Proofs.Layout.Filling
import DocLayout.Proofs.Layout.Indentation
import DocLayout.Proofs.Layout.Branch
import DocLayout.Proofs.Layout.Descent
import DocLayout.Proofs.Layout.Straight
import DocLayout.Proofs.Layout.Termination
import DocLayout.Proofs.Layout.Alignment
import DocLayout.Proofs.Doc.NormalForm
import DocLayout.Proofs.Layout.WidthReport
import DocLayout.Proofs.Layout.Division
import DocLayout.Proofs.Layout.Joining
import DocLayout.Proofs.Doc.Comparison
import DocLayout.Proofs.Doc.Written
import DocLayout.Proofs.Layout.Printing
