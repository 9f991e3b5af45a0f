import BlogTutorials.Fibonacci
import BlogTutorials.DebugFixtures
import BlogTutorials.Json.Value
import BlogTutorials.Json.Scan
import BlogTutorials.Json.Parser
import BlogTutorials.Json.Termination
import BlogTutorials.Json.Errors
import BlogTutorials.Json.Positions
import BlogTutorials.Json.Grammar
import BlogTutorials.Json.Completeness
import BlogTutorials.Json.Dumps
import BlogTutorials.Json.RoundTrip
import BlogTutorials.Tree.Basic
import BlogTutorials.Tree.LevelOrder
import BlogTutorials.Tree.Visits
import BlogTutorials.Server.Handler
import BlogTutorials.LinkedList.Basic
import BlogTutorials.LinkedList.Chain
import BlogTutorials.LinkedList.Refinement
import BlogTutorials.RunTests
