/-
# Well-known packages

Which packages stand for what: the frameworks that map objects to tables, by language, and sets
of packages that tell what the code importing them is for.  Where several keys match a module,
the longest one is meant (`longestMatch?`), so a package is not mistaken for one whose name its
own starts with.
-/
import Codemap.Packages.Name

namespace Codemap

/-! ## 1. Mapping frameworks -/

/-- A framework that maps objects to tables. -/
inductive Framework where
  | typeorm
  | mikroOrm
  | sequelizeTypescript
  | sequelize
  | mongoose
  | sqlalchemy
  | django
  | sqlmodel
  | peewee
  | jpa
  | gorm
deriving Repr, DecidableEq, Inhabited

namespace Framework

/-- All frameworks. -/
def all : List Framework :=
  [typeorm, mikroOrm, sequelizeTypescript, sequelize, mongoose, sqlalchemy, django, sqlmodel,
    peewee, jpa, gorm]

/-- The name of a framework. -/
def name : Framework → String
  | typeorm => "typeorm"
  | mikroOrm => "mikro-orm"
  | sequelizeTypescript => "sequelize-typescript"
  | sequelize => "sequelize"
  | mongoose => "mongoose"
  | sqlalchemy => "sqlalchemy"
  | django => "django"
  | sqlmodel => "sqlmodel"
  | peewee => "peewee"
  | jpa => "jpa"
  | gorm => "gorm"

/-- The framework of a given name. -/
def ofName? (s : String) : Option Framework := all.find? fun f => f.name == s

end Framework

namespace Packages

/-! ## 2. Looking up -/

/-- The longest of the keys that `source` belongs to, by its bytes; the last of the longest ones. -/
def longestMatch? (keys : List String) (source : String) : Option String :=
  keys.foldl
    (fun best key =>
      if belongsTo source key then
        match best with
        | some b => if b.utf8ByteSize ≤ key.utf8ByteSize then some key else best
        | none => some key
      else best)
    none

/-- The packages of a language that map objects to tables, and their frameworks. -/
def frameworkKeys : Language → List (String × Framework)
  | .typescript | .tsx | .javascript =>
    [("typeorm", .typeorm), ("@mikro-orm", .mikroOrm),
      ("sequelize-typescript", .sequelizeTypescript), ("sequelize", .sequelize),
      ("mongoose", .mongoose)]
  | .python =>
    [("sqlalchemy", .sqlalchemy), ("flask_sqlalchemy", .sqlalchemy), ("django.db", .django),
      ("sqlmodel", .sqlmodel), ("peewee", .peewee)]
  | .java =>
    [("javax.persistence", .jpa), ("jakarta.persistence", .jpa), ("org.hibernate", .jpa)]
  | .go => [("gorm.io/gorm", .gorm), ("github.com/jinzhu/gorm", .gorm)]

/-- The framework that a table has for a module. -/
def frameworkIn? (table : List (String × Framework)) (source : String) : Option Framework := do
  let key ← longestMatch? (table.map (·.1)) source
  (table.find? fun entry => entry.1 == key).map (·.2)

/-- The framework that a module belongs to. -/
def framework? (language : Language) (source : String) : Option Framework :=
  frameworkIn? (frameworkKeys language) source

/-! ## 3. What packages stand for -/

/-- Libraries whose base classes check values and hold no tables. -/
def validation : List String :=
  ["pydantic", "marshmallow", "class-validator", "zod"]

/-- Libraries that user interfaces are made with. -/
def frontend : List String :=
  ["react", "react-dom", "vue", "@angular", "svelte", "@sveltejs", "next", "nuxt", "preact",
    "solid-js"]

/-- Libraries that answer requests. -/
def web : List String :=
  ["express", "fastify", "koa", "@nestjs", "hapi", "@hapi", "fastapi", "flask", "django",
    "starlette", "spring-boot-starter-web", "org.springframework.web", "github.com/gin-gonic/gin",
    "github.com/labstack/echo", "github.com/gofiber/fiber", "github.com/go-chi/chi"]

/-- Libraries that work off queues. -/
def worker : List String :=
  ["celery", "rq", "dramatiq", "huey", "arq", "bull", "bullmq", "agenda", "kafkajs", "amqplib",
    "github.com/hibiken/asynq"]

/-- Libraries that command lines are made with. -/
def cli : List String :=
  ["commander", "yargs", "click", "typer", "github.com/spf13/cobra", "github.com/urfave/cli",
    "picocli"]

/-- Drivers of databases, and libraries that map objects to tables. -/
def data : List String :=
  ["typeorm", "@mikro-orm", "sequelize", "sequelize-typescript", "mongoose", "mongodb", "pg",
    "mysql", "mysql2", "sqlite3", "knex", "prisma", "@prisma", "sqlalchemy", "flask_sqlalchemy",
    "django.db", "sqlmodel", "peewee", "psycopg2", "asyncpg", "pymongo", "javax.persistence",
    "jakarta.persistence", "org.hibernate", "java.sql", "org.springframework.data",
    "database/sql", "gorm.io/gorm", "github.com/jinzhu/gorm", "go.mongodb.org/mongo-driver"]

/-- Caches, queues and messaging. -/
def infrastructure : List String :=
  ["redis", "ioredis", "memcached", "kafkajs", "amqplib", "bull", "bullmq", "celery", "pika",
    "aio_pika", "confluent_kafka", "kafka", "nats", "github.com/go-redis/redis",
    "github.com/redis/go-redis", "github.com/segmentio/kafka-go", "org.springframework.kafka"]

/-- Clients for requests to others. -/
def httpClient : List String :=
  ["axios", "node-fetch", "got", "superagent", "requests", "httpx", "aiohttp", "urllib3",
    "okhttp3", "java.net.http", "org.apache.http", "github.com/go-resty/resty"]

end Packages

end Codemap
